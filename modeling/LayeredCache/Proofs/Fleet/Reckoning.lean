import LayeredCache.Proofs.Fleet.Counting

/-! What the counts of a cache add up to in the course of calls. They are those of all the calls that were made since they
were set back, each counted once; and whoever finds no writer at work on the cache finds them complete. -/

set_option autoImplicit false

namespace LayeredCache

open Metrics (Recording Tally)

variable {Key Value : Type} [DecidableEq Key]

/-- The counts of a cache once calls have been counted. -/
def tallied (number : Nat) (trace : List (Frame Key Value)) (tally : Tally) : Tally :=
  trace.foldl (fun tally frame => frame.tallied number tally) tally

/-- What has been counted on a cache in the course of calls since its counts were set back. -/
def countedSince (number : Nat) (trace : List (Frame Key Value)) : List Recording :=
  trace.foldl (fun past frame => if frame.resets number then [] else past ++ frame.recordings number) []

namespace Fleet

/-- No call sets the counts of a cache back while its writer waits. -/
def Spared (number : Nat) (trace : List (Frame Key Value)) : Prop :=
  ∀ frame ∈ trace, number ∈ frame.writers → frame.resets number = false

variable {fleet before between after : Fleet Key Value} {number : Nat} {react : Reaction Key Value}
  {request : Call Key Value} {writers : List Nat} {undertaking : Undertaking Key Value}
  {trace more : List (Frame Key Value)}

theorem tallied_append (number : Nat) (trace more : List (Frame Key Value)) (tally : Tally) :
    tallied number (trace ++ more) tally = tallied number more (tallied number trace tally) :=
  List.foldl_append

/-- Where nothing is set back, everything counts. -/
theorem tallied_of_unreset (unreset : ∀ frame ∈ trace, frame.resets number = false) (tally : Tally) :
    tallied number trace tally = tally.recordAll (trace.flatMap (Frame.recordings number)) := by
  induction trace generalizing tally with
  | nil => rfl
  | cons frame rest ih =>
      obtain ⟨first, others⟩ := List.forall_mem_cons.mp unreset
      rw [List.flatMap_cons, Tally.recordAll_append, ← tallied_of_spared first tally]
      exact ih others _

/-- The counts of a cache are those of what was counted since they were set back. -/
theorem tallied_zero (number : Nat) (trace : List (Frame Key Value)) :
    tallied number trace .zero = Tally.zero.recordAll (countedSince number trace) := by
  have each : ∀ past, tallied number trace (Tally.zero.recordAll past) = Tally.zero.recordAll
      (trace.foldl (fun past frame => if frame.resets number then [] else past ++ frame.recordings number) past) := by
    induction trace with
    | nil => exact fun _ => rfl
    | cons frame rest ih =>
        intro past
        have head : frame.tallied number (Tally.zero.recordAll past) = Tally.zero.recordAll
            (if frame.resets number then [] else past ++ frame.recordings number) := by
          rw [Frame.tallied]
          split
          · rfl
          · exact (Tally.recordAll_append _ _ _).symm
        rw [List.foldl_cons, ← ih, ← head]
        rfl
  exact each []

/-- What was counted since nothing was set back is all that was counted. -/
theorem countedSince_of_unreset (unreset : ∀ frame ∈ trace, frame.resets number = false) :
    countedSince number trace = trace.flatMap (Frame.recordings number) := by
  have each : ∀ past, trace.foldl (fun past frame => if frame.resets number then [] else past ++ frame.recordings number)
      past = past ++ trace.flatMap (Frame.recordings number) := by
    induction trace with
    | nil => exact fun past => (List.append_nil past).symm
    | cons frame rest ih =>
        obtain ⟨first, others⟩ := List.forall_mem_cons.mp unreset
        intro past
        rw [List.foldl_cons, ih others, first, List.flatMap_cons, ← List.append_assoc]
        rfl
  exact each []

theorem caches_ofSettings {settings : List Settings} (listed : number < settings.length) :
    (ofSettings settings : Fleet Key Value).caches[number]? = some (Cache.ofSettings settings[number]) := by
  rw [ofSettings, List.getElem?_toArray, List.getElem?_map, List.getElem?_eq_getElem listed]
  rfl

/-- From one fleet to the next, the counts of a cache have become those of the calls made, in the end and at every call
that finds no writer at work on it. -/
structure Counted (number : Nat) (trace : List (Frame Key Value)) (before after : Fleet Key Value) : Prop where
  left : after.tally? number = (before.tally? number).map (tallied number trace)
  seen : ∀ {past frame future}, trace = past ++ frame :: future → ¬frame.fleet.Busy number →
    frame.fleet.tally? number = (before.tally? number).map (tallied number past)

namespace Counted

theorem same (tally : after.tally? number = before.tally? number) : Counted number [] before after where
  left := tally.trans Option.map_id'.symm
  seen {past _ _} split := by
    cases past <;> cases split

theorem trans (start : Counted number trace before between) (rest : Counted number more between after) :
    Counted number (trace ++ more) before after := by
  have both : ∀ later : List (Frame Key Value), (between.tally? number).map (tallied number later) =
      (before.tally? number).map (tallied number (trace ++ later)) := by
    intro later
    rw [start.left, Option.map_map]
    exact congrArg (fun counts => Option.map counts _)
      (funext fun tally => (tallied_append number trace later tally).symm)
  constructor
  · exact rest.left.trans (both more)
  · intro past frame future split idle
    rcases split_append split with ⟨later, early⟩ | ⟨others, rfl, late⟩
    · exact start.seen early idle
    · exact (rest.seen late idle).trans (both others)

/-- A call, with those made in its middle, before which the counts were the same as before it. -/
theorem around {start : Fleet Key Value} (inner : Counted number trace start between)
    (begun : start.tally? number = before.tally? number) (ended : after.tally? number = between.tally? number)
    {frame : Frame Key Value} (fleet : frame.fleet = before) (silent : frame.tallied number = id) :
    Counted number (frame :: trace) before after := by
  have counts : ∀ later : List (Frame Key Value), (start.tally? number).map (tallied number later) =
      (before.tally? number).map (tallied number (frame :: later)) := by
    intro later
    rw [begun]
    refine congrArg (fun counts => Option.map counts _) (funext fun tally => ?_)
    exact congrArg (tallied number later) (congrFun silent tally).symm
  constructor
  · exact ended.trans (inner.left.trans (counts trace))
  · intro past other future split idle
    cases past with
    | nil =>
        obtain ⟨rfl, -⟩ := List.cons.inj split
        rw [fleet]
        exact Option.map_id'.symm
    | cons head past =>
        obtain ⟨rfl, rest⟩ := List.cons.inj split
        exact (inner.seen rest idle).trans (counts past)

/-- A call that counts for itself, with others in its middle that find a writer at work. -/
theorem begun {frame : Frame Key Value} (fleet : frame.fleet = before)
    (left : after.tally? number = (before.tally? number).map (tallied number (frame :: trace)))
    (busy : ∀ other ∈ trace, other.fleet.Busy number) : Counted number (frame :: trace) before after where
  left := left
  seen {past other future} split idle := by
    cases past with
    | nil =>
        obtain ⟨rfl, -⟩ := List.cons.inj split
        rw [fleet]
        exact Option.map_id'.symm
    | cons head past =>
        obtain ⟨-, rest⟩ := List.cons.inj split
        exact absurd (busy other (rest ▸ List.mem_append_right past List.mem_cons_self)) idle

theorem noted (counted : Counted number trace before after) (line : Note Key Value) :
    Counted number trace before (after.note line) :=
  ⟨counted.left, counted.seen⟩

end Counted

/-- From one fleet to the next, the counts of a cache have become those of the calls made, as long as nobody set them back
while its writer waited. -/
structure Reckoned (number : Nat) (writers : List Nat) (trace : List (Frame Key Value)) (before after : Fleet Key Value) :
    Prop where
  course : Coursed number trace before after
  waiting : ∀ frame ∈ trace, writers ⊆ frame.writers
  counted : Spared number trace → Counted number trace before after

theorem Reckoned.trans (start : Reckoned number writers trace before between)
    (rest : Reckoned number writers more between after) : Reckoned number writers (trace ++ more) before after where
  course := start.course.trans rest.course
  waiting := List.forall_mem_append.mpr ⟨start.waiting, rest.waiting⟩
  counted spared := by
    obtain ⟨early, late⟩ := List.forall_mem_append.mp spared
    exact (start.counted early).trans (rest.counted late)

theorem tally?_told (listener : Listener Key Value) (place number : Nat) (event : Event Key Value)
    (fleet : Fleet Key Value) : (listener.told place event fleet).tally? number = fleet.tally? number := by
  rw [Listener.told]
  split <;> rfl

theorem tally?_hold (fleet : Fleet Key Value) (place number : Nat) (mode : LockMode) :
    (fleet.hold place mode).tally? number = fleet.tally? number :=
  tally?_adjust fleet place number fun _ => rfl

theorem tally?_install (fleet : Fleet Key Value) (place number : Nat) (action : Action Key Value) :
    (fleet.adjust place action.install).tally? number = fleet.tally? number := by
  refine tally?_adjust fleet place number ?_
  intro cache
  cases action <;> rfl

/-- A writer that lets its cache go leaves the counts. -/
theorem tally?_after (undertaking : Undertaking Key Value) (react : Reaction Key Value) (fleet : Fleet Key Value)
    (number : Nat) : (undertaking.after react fleet).tally? number = (undertaking.worked react fleet).2.2.tally? number :=
  tally?_adjust (undertaking.worked react fleet).2.2 undertaking.number number fun _ => rfl

/-- Whatever is called in the middle of a call finds the same caches held, and more. -/
theorem waiting_flatten {runs : List (Run Key Value)} {pieces : List (List (Frame Key Value))}
    {related : List Nat → List (Frame Key Value) → Fleet Key Value → Fleet Key Value → Prop}
    (waiting : ∀ {writers trace before after}, related writers trace before after →
      ∀ frame ∈ trace, writers ⊆ frame.writers)
    (within : List.Forall₂ (Run.Within related) runs pieces) (each : ∀ run ∈ runs, writers ⊆ run.writers) :
    ∀ frame ∈ pieces.flatten, writers ⊆ frame.writers := by
  induction within with
  | nil => exact List.forall_mem_nil _
  | cons made _ ih =>
      obtain ⟨first, others⟩ := List.forall_mem_cons.mp each
      exact List.forall_mem_append.mpr ⟨fun frame listed => List.Subset.trans first (waiting made frame listed), ih others⟩

/-- A writer has had counted on its cache what its deeds count; and so have those that were called meanwhile. -/
theorem counted_own (taken : fleet.undertaking? request = some undertaking)
    {pieces : List (List (Frame Key Value))}
    (within : List.Forall₂ (Run.Within (Reckoned undertaking.number)) (undertaking.runs react fleet writers) pieces)
    (unreset : ∀ frame ∈ pieces.flatten, frame.resets undertaking.number = false) :
    (undertaking.worked react fleet).2.2.tally? undertaking.number = (fleet.tally? undertaking.number).map
      (tallied undertaking.number (.begin react writers request fleet :: pieces.flatten)) := by
  let along (counted : List Recording) (trace : List (Frame Key Value)) (world : Fleet Key Value) : Prop :=
    (∀ frame ∈ trace, frame.resets undertaking.number = false) →
      world.tally? undertaking.number = (fleet.tally? undertaking.number).map fun tally =>
        tally.recordAll (counted ++ trace.flatMap (Frame.recordings undertaking.number))
  have attends : undertaking.Attends writers (Reckoned undertaking.number) along := by
    constructor
    · intro recording counted trace world before unreset
      rw [tally?_record, before unreset, Option.map_map]
      refine congrArg (fun counts => Option.map counts _) (funext fun tally => ?_)
      have moved : ((counted ++ trace.flatMap (Frame.recordings undertaking.number)) ++ [recording]).Perm
          (counted ++ [recording] ++ trace.flatMap (Frame.recordings undertaking.number)) := by
        rw [List.append_assoc, List.append_assoc]
        exact List.perm_append_comm.append_left counted
      rw [← Tally.recordAll_congr (Metrics.congruent_of_perm moved), Tally.recordAll_append]
      rfl
    · intro listener event counted trace more world after before made unreset
      obtain ⟨early, late⟩ := List.forall_mem_append.mp unreset
      have left := (made.counted fun frame listed _ => late frame listed).left
      rw [tally?_told, before early, Option.map_map, funext (tallied_of_unreset late)] at left
      rw [left]
      refine congrArg (fun counts => Option.map counts _) (funext fun tally => ?_)
      rw [List.flatMap_append, ← List.append_assoc, Tally.recordAll_append]
      rfl
  have begun : along [] [] (fleet.hold undertaking.number .exclusive) :=
    fun _ => (tally?_hold fleet _ _ .exclusive).trans Option.map_id'.symm
  have left := undertaking.attended attends within begun unreset
  have spared : (Frame.begin react writers request fleet).resets undertaking.number = false :=
    spared_of_taken taken undertaking.number
  have recordings := recordings_taken taken react writers undertaking.number
  rw [if_pos rfl] at recordings
  have recounts := Tiers.recounts_operateHeld (undertaking.host react) undertaking.operation undertaking.cache.tiers
    (fleet.hold undertaking.number .exclusive)
  rw [left, funext (tallied_of_unreset (List.forall_mem_cons.mpr ⟨spared, unreset⟩)), List.flatMap_cons, recordings]
  exact congrArg (fun counts => Option.map counts _)
    (funext (Tally.recordAll_congr (recounts.counted.append (.refl _))))

/-- A writer leaves the counts of other caches as those that were called meanwhile. -/
theorem counted_other (apart : undertaking.number ≠ number) {pieces : List (List (Frame Key Value))}
    (within : List.Forall₂ (Run.Within (Reckoned number)) (undertaking.runs react fleet writers) pieces)
    (spared : Spared number pieces.flatten) :
    Counted number pieces.flatten (fleet.hold undertaking.number .exclusive) (undertaking.worked react fleet).2.2 := by
  let start := fleet.hold undertaking.number .exclusive
  have attends : undertaking.Attends writers (Reckoned number) fun _ trace world =>
      Spared number trace → Counted number trace start world := by
    constructor
    · intro recording counted trace world before spared
      have whole := (before spared).trans (.same (tally?_of_ne world (Cache.record recording) apart))
      rwa [List.append_nil] at whole
    · intro listener event counted trace more world after before made spared
      obtain ⟨early, late⟩ := List.forall_mem_append.mp spared
      have told := (before early).trans (.same (tally?_told listener undertaking.number number event world))
      rw [List.append_nil] at told
      exact told.trans (made.counted late)
  exact undertaking.attended attends within (fun _ => .same rfl) spared

/-- What can be seen between the operations on a cache while calls are carried out, with the calls made until then: what
every call begins with that finds no writer at work on it, and what is there in the end. -/
inductive Between (number : Nat) (trace : List (Frame Key Value)) (after : Fleet Key Value) :
    List (Frame Key Value) → Fleet Key Value → Prop where
  | begun {past future : List (Frame Key Value)} {frame : Frame Key Value} (split : trace = past ++ frame :: future)
      (idle : ¬frame.fleet.Busy number) : Between number trace after past frame.fleet
  | ended : Between number trace after trace after

theorem Between.shown {past : List (Frame Key Value)} {now : Fleet Key Value}
    (between : Between number trace after past now) :
    Shown number trace after (past.flatMap (Frame.deedsOn number)) now := by
  cases between with
  | begun split idle => exact .begun split idle
  | ended => exact .ended

theorem Between.subset {past : List (Frame Key Value)} {now : Fleet Key Value}
    (between : Between number trace after past now) : past ⊆ trace := by
  cases between with
  | begun split =>
      rw [split]
      exact List.subset_append_left past _
  | ended => exact List.Subset.refl trace

variable [BEq Value]

theorem writers_within {run : Run Key Value} (made : run ∈ nested react writers request fleet) :
    writers ⊆ run.writers := by
  rw [nested] at made
  cases taken : fleet.undertaking? request with
  | some undertaking =>
      rw [taken] at made
      rw [writers_runs made]
      exact List.subset_cons_self _ _
  | none =>
      rw [taken] at made
      cases sought : fleet.search? request with
      | some place =>
          rw [sought] at made
          rw [List.mem_singleton.mp made]
          exact List.Subset.refl _
      | none =>
          rw [sought] at made
          cases made

/-- Whatever is called while a writer is at work finds it at work, and does nothing on its cache. -/
theorem waiting_within (taken : fleet.undertaking? request = some undertaking) {pieces : List (List (Frame Key Value))}
    (within : List.Forall₂ (Run.Within (Reckoned undertaking.number)) (undertaking.runs react fleet writers) pieces) :
    ∀ frame ∈ pieces.flatten, frame.fleet.Busy undertaking.number ∧ frame.deedsOn undertaking.number = [] ∧
      undertaking.number ∈ frame.writers := by
  have waits : ∀ frame ∈ pieces.flatten, undertaking.number :: writers ⊆ frame.writers := by
    refine waiting_flatten Reckoned.waiting within ?_
    intro run made
    rw [writers_runs made]
    exact List.Subset.refl _
  have coursed := undertaking.works (coursed_coherent undertaking.number) (within.imp fun _ _ made => made.course)
  have held := busy_hold (find?_eq_some_iff.mp (undertaking?_eq_some taken).2.1).2
  intro frame listed
  obtain ⟨busy, idle⟩ := coursed.busy held frame listed
  exact ⟨busy, idle, waits frame listed List.mem_cons_self⟩

/-- A writer leaves the counts of each cache as those of its deeds and of what was called meanwhile. -/
theorem counted_worked (taken : fleet.undertaking? request = some undertaking) {pieces : List (List (Frame Key Value))}
    (within : List.Forall₂ (Run.Within (Reckoned number)) (undertaking.runs react fleet writers) pieces)
    (spared : Spared number pieces.flatten) :
    Counted number (.begin react writers request fleet :: pieces.flatten) fleet
      ((undertaking.after react fleet).adjust undertaking.number request.action.install) := by
  have released : ((undertaking.after react fleet).adjust undertaking.number request.action.install).tally? number =
      (undertaking.worked react fleet).2.2.tally? number :=
    (tally?_install _ _ number request.action).trans (tally?_after undertaking react fleet number)
  by_cases here : undertaking.number = number
  · subst here
    have waits := waiting_within taken within
    have unreset : ∀ frame ∈ pieces.flatten, frame.resets undertaking.number = false :=
      fun frame listed => spared frame listed (waits frame listed).2.2
    exact .begun rfl (released.trans (counted_own taken within unreset)) fun frame listed => (waits frame listed).1
  · have quiet := deedsOn_taken taken react writers number
    rw [if_neg here] at quiet
    exact (counted_other here within spared).around (tally?_hold fleet _ number .exclusive) released rfl
      (tallied_eq_id (undertaking?_eq_some taken).1 (spared_of_taken taken number) (lookedUp_of_taken taken number) quiet)

theorem counted_answer {pieces : List (List (Frame Key Value))}
    (within : List.Forall₂ (Run.Within (Reckoned number)) (nested react writers request fleet) pieces)
    (spared : Spared number pieces.flatten) :
    Counted number (.begin react writers request fleet :: pieces.flatten) fleet (answer react request fleet) := by
  rw [answer]
  cases taken : fleet.undertaking? request with
  | some undertaking =>
      rw [nested, taken] at within
      rw [(perform_undertaking taken react).2]
      exact (counted_worked taken within spared).noted _
  | none =>
      rw [nested, taken] at within
      cases sought : fleet.search? request with
      | some place =>
          obtain ⟨other, cache, calls⟩ := place
          obtain ⟨found, performed⟩ := (perform_search sought react).2
          rw [sought] at within
          rw [performed]
          cases within with
          | cons made rest =>
              cases rest
              rw [List.flatten_singleton] at spared ⊢
              have released : (search (performEach react calls) other cache fleet).tally? number =
                  (performEach react calls (fleet.hold other .shared)).tally? number :=
                tally?_adjust _ other number fun _ => rfl
              have silent := tallied_search taken sought react writers number
              exact ((made.counted spared).around (tally?_hold fleet other number .shared) released rfl silent).noted _
      | none =>
          rw [sought] at within
          cases within
          exact .begun rfl (tally?_aside taken sought react writers number) (List.forall_mem_nil _)

/-- What is carried out has the counts of each cache go the way of the calls made, one after the other. -/
theorem reckoned_composed (number : Nat) : Composed (@Reckoned Key Value _ number) where
  refl _ _ := ⟨.same rfl rfl, nofun, fun _ => .same rfl⟩
  trans start rest := start.trans rest
  answered within := by
    refine ⟨answer_coherent (coursed_coherent number) (within.imp fun _ _ made => made.course), ?_, ?_⟩
    · refine List.forall_mem_cons.mpr ⟨List.Subset.refl _, ?_⟩
      exact waiting_flatten Reckoned.waiting within fun _ made => writers_within made
    · exact fun spared => counted_answer within (List.forall_mem_cons.mp spared).2

/-- Between operations, the counts of a cache are those of the calls made until then. -/
theorem Between.counted {calls : List (Call Key Value)} (carried : CarriedOut [⟨writers, calls, before, after⟩] trace)
    (spared : Spared number trace) {past : List (Frame Key Value)} {now : Fleet Key Value}
    (between : Between number trace after past now) :
    now.tally? number = (before.tally? number).map (tallied number past) := by
  have counted := (carried.composes (reckoned_composed number)).counted spared
  cases between with
  | begun split idle => exact counted.seen split idle
  | ended => exact counted.left

/-- Where nothing is set back in the middle of a call, the cache that it is on has counted the call and what was called in
its middle. -/
theorem tally_perform {cache : Cache Key Value} (located : fleet.find? request.handle = some (number, cache))
    (within : CarriedOut (nested react writers request fleet) more)
    (unreset : ∀ frame ∈ more, frame.resets number = false) :
    ∃ left, (perform react request fleet).2.caches[number]? = some left ∧
      left.tally = ((Frame.begin react writers request fleet).tallied number cache.tally).recordAll
        (more.flatMap (Frame.recordings number)) := by
  obtain ⟨pieces, rfl, made⟩ := within.within (reckoned_composed number)
  have counted := (counted_answer made fun frame listed _ => unreset frame listed).left
  have stored : fleet.tally? number = some cache.tally :=
    congrArg (Option.map Cache.tally) (find?_eq_some_iff.mp located).2
  rw [stored] at counted
  obtain ⟨left, found, tally⟩ := Option.map_eq_some_iff.mp counted
  exact ⟨left, found, tally.trans (tallied_of_unreset unreset _)⟩

/-- Between operations on caches that began with nothing counted, the counts are those of what was counted since they were
set back. -/
theorem Between.countedSince {settings : List Settings} {calls : List (Call Key Value)}
    (carried : CarriedOut [⟨writers, calls, ofSettings settings, after⟩] trace) (listed : number < settings.length)
    (spared : Spared number trace) {past : List (Frame Key Value)} {now : Fleet Key Value}
    (between : Between number trace after past now) :
    ∃ cache, now.caches[number]? = some cache ∧ cache.tally = Tally.zero.recordAll (countedSince number past) := by
  have counted := between.counted carried spared
  have fresh : (ofSettings settings : Fleet Key Value).tally? number = some .zero :=
    congrArg (Option.map Cache.tally) (caches_ofSettings listed)
  rw [fresh] at counted
  obtain ⟨cache, found, tally⟩ := Option.map_eq_some_iff.mp counted
  exact ⟨cache, found, tally.trans (tallied_zero number past)⟩

end Fleet

end LayeredCache
