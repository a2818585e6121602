import LayeredCache.Proofs.Fleet.Coherence
import LayeredCache.Proofs.Fleet.Conservation
import Mathlib.Data.List.Perm.Subperm

/-! How deep calls nest. Whoever waits for the calls of a listener holds a cache for itself, and holds are given back when
a call ends, so that the writers that wait hold different caches. There are no more of them than caches, and the calls
made while every cache is held give rise to no others: whatever the listeners do, a call comes to an end. -/

set_option autoImplicit false

namespace LayeredCache

variable {Key Value : Type} [DecidableEq Key]

namespace Fleet

def holds (fleet : Fleet Key Value) : Array Hold := fleet.caches.map Cache.hold

/-- Different caches, each held by a writer. -/
structure Manned (writers : List Nat) (fleet : Fleet Key Value) : Prop where
  distinct : writers.Nodup
  busy : ∀ number ∈ writers, fleet.Busy number

variable {fleet before after world : Fleet Key Value} {number : Nat} {cache : Cache Key Value}
  {change : Cache Key Value → Cache Key Value} {writers : List Nat} {request : Call Key Value}
  {undertaking : Undertaking Key Value} {react : Reaction Key Value}

theorem getElem?_holds (fleet : Fleet Key Value) (number : Nat) :
    fleet.holds[number]? = fleet.caches[number]?.map Cache.hold :=
  Array.getElem?_map

theorem size_of_holds (same : after.holds = before.holds) : after.caches.size = before.caches.size := by
  have sizes := congrArg Array.size same
  rwa [holds, holds, Array.size_map, Array.size_map] at sizes

theorem busy_iff : fleet.Busy number ↔ fleet.holds[number]? = some (.held .exclusive) := by
  rw [getElem?_holds, Option.map_eq_some_iff]
  rfl

theorem holds_adjust (fleet : Fleet Key Value) (number : Nat) (kept : ∀ cache, (change cache).hold = cache.hold) :
    (fleet.adjust number change).holds = fleet.holds := by
  apply Array.ext_getElem?
  intro other
  rw [getElem?_holds, getElem?_holds, caches_adjust]
  split
  · rw [Option.map_map]
    exact congrArg (fun hold => Option.map hold _) (funext kept)
  · rfl

theorem holds_record (fleet : Fleet Key Value) (number : Nat) (recording : Metrics.Recording) :
    (fleet.adjust number (Cache.record recording)).holds = fleet.holds :=
  holds_adjust fleet number fun _ => rfl

theorem holds_told (listener : Listener Key Value) (number : Nat) (event : Event Key Value) (fleet : Fleet Key Value) :
    (listener.told number event fleet).holds = fleet.holds := by
  rw [Listener.told]
  split <;> rfl

/-- Who lets a cache go that it held leaves the holds that it found, if nobody else has changed them. -/
theorem holds_released (found : fleet.caches[number]? = some cache) {mode : LockMode}
    (same : world.holds = (fleet.hold number mode).holds) (released : ∀ other, (change other).hold = cache.hold) :
    (world.adjust number change).holds = fleet.holds := by
  apply Array.ext_getElem?
  intro other
  have stored := congrArg (fun holds : Array Hold => holds[other]?) same
  simp only [getElem?_holds, hold, caches_adjust] at stored ⊢
  by_cases here : number = other
  · subst here
    rw [if_pos rfl, found] at stored
    obtain ⟨now, present, -⟩ := Option.map_eq_some_iff.mp stored
    rw [if_pos rfl, present, found]
    exact congrArg some (released now)
  · rw [if_neg here] at stored ⊢
    exact stored

theorem holds_work (found : fleet.caches[number]? = some cache) (free : cache.hold = .free)
    (moves : (host react number cache.listener).Moves fun before after => after.holds = before.holds)
    (operation : Operation Key Value) : (work react number cache operation fleet).2.holds = fleet.holds := by
  let held := fleet.hold number .exclusive
  have keeps := moves.keeps (fun start rest => rest.trans start) held
  have same := Tiers.operateHeld_keeps keeps operation cache.tiers (show held.holds = held.holds from rfl)
  exact holds_released found same fun _ => free.symm

theorem holds_closed [BEq Value] :
    Closed (fun before after : Fleet Key Value => after.holds = before.holds)
      fun _ before after => after.holds = before.holds where
  refl _ := rfl
  trans start rest := rest.trans start
  working_of_related same := same
  working_trans start rest := rest.trans start
  told _ _ _ := rfl
  answered _ _ _ := rfl
  beside fleet number _ beside := holds_adjust fleet number beside.hold
  cloned _ _ := rfl
  advanced _ _ := rfl
  reclaimed {fleet _ number _} _ := by
    have same : (fleet.adjust number fun cache => { cache with epoch := cache.epoch + 1 }).holds = fleet.holds :=
      holds_adjust fleet number fun _ => rfl
    exact same
  searched found _ searched := holds_released found searched fun _ => rfl
  worked located free _ moves := holds_work (find?_eq_some_iff.mp located).2 free moves _
  purged found free moves := holds_work found free moves _

theorem Manned.of_holds (manned : Manned writers before) (same : after.holds = before.holds) : Manned writers after := by
  refine ⟨manned.distinct, ?_⟩
  intro number listed
  rw [busy_iff, same, ← busy_iff]
  exact manned.busy number listed

/-- There are no more writers at work than caches. -/
theorem Manned.length_le (manned : Manned writers fleet) : writers.length ≤ fleet.caches.size := by
  have inside : writers ⊆ List.range fleet.caches.size := by
    intro number listed
    obtain ⟨cache, found, -⟩ := manned.busy number listed
    exact List.mem_range.mpr (Array.getElem?_eq_some_iff.mp found).choose
  have bounded := (manned.distinct.subperm inside).length_le
  rwa [List.length_range] at bounded

theorem Manned.hold (manned : Manned writers fleet) (found : fleet.caches[number]? = some cache)
    (idle : cache.hold ≠ .held .exclusive) (mode : LockMode) : Manned writers (fleet.hold number mode) := by
  refine ⟨manned.distinct, ?_⟩
  intro writer listed
  refine (manned.busy writer listed).adjust ?_
  rintro rfl
  exact absurd (manned.busy writer listed) (not_busy found idle)

/-- A writer that finds its cache free is another one than those at work. -/
theorem Manned.begin (manned : Manned writers fleet) (taken : fleet.undertaking? request = some undertaking)
    (free : undertaking.cache.hold = .free) :
    Manned (undertaking.number :: writers) (fleet.hold undertaking.number .exclusive) := by
  have found := (find?_eq_some_iff.mp (undertaking?_eq_some taken).2.1).2
  have idle : undertaking.cache.hold ≠ .held .exclusive := by
    rw [free]
    exact nofun
  have others := manned.hold found idle .exclusive
  constructor
  · refine List.nodup_cons.mpr ⟨?_, manned.distinct⟩
    intro listed
    exact not_busy found idle (manned.busy _ listed)
  · intro writer listed
    rcases List.mem_cons.mp listed with rfl | earlier
    · exact busy_hold found
    · exact others.busy writer earlier

/-- Calls leave the holds as they were, and are begun with different caches held by the writers at work. -/
def WellNested (writers : List Nat) (trace : List (Frame Key Value)) (before after : Fleet Key Value) : Prop :=
  after.holds = before.holds ∧
    (Manned writers before → ∀ frame ∈ trace,
      Manned frame.writers frame.fleet ∧ frame.fleet.caches.size = before.caches.size)

theorem WellNested.trans {trace more : List (Frame Key Value)} (start : WellNested writers trace before world)
    (rest : WellNested writers more world after) : WellNested writers (trace ++ more) before after := by
  refine ⟨rest.1.trans start.1, ?_⟩
  intro manned frame listed
  rcases List.mem_append.mp listed with earlier | later
  · exact start.2 manned frame earlier
  · rw [← size_of_holds start.1]
    exact rest.2 (manned.of_holds start.1) frame later

/-- A call that takes a cache for itself takes another one than those that wait for it. -/
theorem Manned.nodup_active [BEq Value] {frame : Frame Key Value} (manned : Manned frame.writers frame.fleet) :
    frame.active.Nodup := by
  rw [Frame.active]
  cases taken : frame.fleet.undertaking? frame.request with
  | none => exact manned.distinct
  | some undertaking => exact (manned.begin taken (perform_undertaking taken (reactTo 0)).1).distinct

theorem Aside.holds {outcome : Reply Key Value × Fleet Key Value} (aside : fleet.Aside request outcome) :
    outcome.2.holds = fleet.holds := by
  cases aside with
  | refused refused => exact holds_record fleet _ _
  | idle => rfl
  | looked => exact (holds_record _ _ _).trans (holds_record fleet _ _)
  | reclaimed => exact holds_adjust fleet _ fun _ => rfl
  | reset => exact holds_adjust fleet _ fun _ => rfl
  | cloned => rfl
  | advanced => rfl

/-- A reader that has searched leaves the holds as they were. -/
theorem holds_searched {calls : List (Call Key Value)} (sought : fleet.search? request = some (number, cache, calls))
    (same : after.holds = (fleet.hold number .shared).holds) :
    (after.adjust number fun other => { other with hold := cache.hold }).holds = fleet.holds :=
  holds_released (find?_eq_some_iff.mp (search?_eq_some sought).2.1).2 same fun _ => rfl

/-- A writer that found its cache free leaves the holds as they were. -/
theorem holds_worked (taken : fleet.undertaking? request = some undertaking) (free : undertaking.cache.hold = .free)
    (same : (undertaking.worked react fleet).2.2.holds = (fleet.hold undertaking.number .exclusive).holds) :
    ((undertaking.after react fleet).adjust undertaking.number request.action.install).holds = fleet.holds := by
  have found := (find?_eq_some_iff.mp (undertaking?_eq_some taken).2.1).2
  have released : (undertaking.after react fleet).holds = fleet.holds :=
    holds_released found same fun _ => free.symm
  exact (holds_adjust _ _ (beside_install request.action).hold).trans released

theorem wellNested_coherent [BEq Value] :
    Coherent (@WellNested Key Value _) fun number writers trace start world =>
      world.holds = start.holds ∧ (Manned (number :: writers) start → ∀ frame ∈ trace,
        Manned frame.writers frame.fleet ∧ frame.fleet.caches.size = start.caches.size) where
  refl _ _ := ⟨rfl, fun _ => nofun⟩
  trans start rest := start.trans rest
  begun _ _ _ := ⟨rfl, fun _ => nofun⟩
  recorded recording working := ⟨(holds_record _ _ recording).trans working.1, working.2⟩
  notified {number writers trace more start world after} listener event working made := by
    have told := holds_told listener number event world
    have first : WellNested (number :: writers) trace start (listener.told number event world) :=
      ⟨told.trans working.1, working.2⟩
    exact first.trans made
  aside react writers calm aside := by
    refine ⟨aside.holds, ?_⟩
    intro manned frame listed
    obtain rfl := List.mem_singleton.mp listed
    exact ⟨manned, rfl⟩
  searched {fleet after request number cache calls trace} react writers reply calm sought shared made := by
    have found := (find?_eq_some_iff.mp (search?_eq_some sought).2.1).2
    have idle : cache.hold ≠ .held .exclusive := by
      intro exclusive
      rw [exclusive] at shared
      cases shared
    refine ⟨holds_searched sought made.1, ?_⟩
    intro manned frame listed
    rcases List.mem_cons.mp listed with rfl | inner
    · exact ⟨manned, rfl⟩
    · have held := made.2 (manned.hold found idle .shared) frame inner
      rwa [hold, adjust, Array.size_modify] at held
  worked {fleet request undertaking trace} react writers reply taken free working := by
    refine ⟨holds_worked taken free working.1, ?_⟩
    intro manned frame listed
    rcases List.mem_cons.mp listed with rfl | inner
    · exact ⟨manned, rfl⟩
    · have held := working.2 (manned.begin taken free) frame inner
      rwa [hold, adjust, Array.size_modify] at held

theorem sizeOf_search {number : Nat} {cache : Cache Key Value} {calls : List (Call Key Value)}
    (sought : fleet.search? request = some (number, cache, calls)) : sizeOf calls < sizeOf request := by
  obtain ⟨-, -, value, during, asked, rfl⟩ := search?_eq_some sought
  obtain ⟨handle, action⟩ := request
  obtain rfl : action = .containsValue value during := asked
  split <;> simp only [Call.mk.sizeOf_spec, Action.containsValue.sizeOf_spec, List.nil.sizeOf_spec] <;> omega

section Existence

variable [BEq Value] {depth : Nat}

theorem answer_holds (depth : Nat) (request : Call Key Value) (fleet : Fleet Key Value) :
    (answer (reactTo depth) request fleet).holds = fleet.holds :=
  answer_related holds_closed (reactTo_related holds_closed depth) request fleet

/-- Runs can be carried out if each of them can. -/
theorem carriedOut_of_each {runs : List (Run Key Value)} (each : ∀ run ∈ runs, ∃ trace, CarriedOut [run] trace) :
    ∃ trace, CarriedOut runs trace := by
  induction runs with
  | nil => exact ⟨[], .nothing⟩
  | cons run rest ih =>
      obtain ⟨first, begun⟩ := each run List.mem_cons_self
      obtain ⟨trace, others⟩ := ih fun other listed => each other (List.mem_cons_of_mem run listed)
      exact ⟨first ++ trace, begun.append others⟩

/-- A listener that is answered to a depth meets the holds that the writer began with at each event. -/
theorem runs_reactTo (undertaking : Undertaking Key Value) (depth : Nat) (fleet : Fleet Key Value) (writers : List Nat) :
    ∀ run ∈ undertaking.runs (reactTo depth) fleet writers, run.writers = undertaking.number :: writers ∧
      run.before.holds = (fleet.hold undertaking.number .exclusive).holds ∧
        run.after = reactTo depth run.calls run.before := by
  rw [Undertaking.runs]
  cases listening : undertaking.cache.listener with
  | none => exact List.forall_mem_nil _
  | some listener =>
      let start := fleet.hold undertaking.number .exclusive
      let along (_ : List Metrics.Recording) (happened : List (Happening (Fleet Key Value) Key Value))
          (world : Fleet Key Value) : Prop :=
        world.holds = start.holds ∧ ∀ happening ∈ happened, happening.before.holds = start.holds
      have told := holds_told listener undertaking.number
      have accompanies : (undertaking.host (reactTo depth)).Accompanies along := by
        rw [Undertaking.host, listening]
        constructor
        · intro recording counted happened world before
          exact ⟨(holds_record world _ recording).trans before.1, before.2⟩
        · intro event counted happened world before
          have answered := reactTo_related holds_closed depth (listener.reacts world.heard event)
            (listener.told undertaking.number event world)
          refine ⟨answered.trans ((told event world).trans before.1), ?_⟩
          exact List.forall_mem_append.mpr ⟨before.2, List.forall_mem_singleton.mpr before.1⟩
      have empty : along [] [] start := ⟨rfl, List.forall_mem_nil _⟩
      have kept := (Tiers.operateHeld_accompanied accompanies undertaking.operation undertaking.cache.tiers empty).2
      intro run made
      obtain ⟨happening, happened, rfl⟩ := List.mem_map.mp made
      have notified := Dialogue.happenings_notified _ _ _ happening happened
      rw [Undertaking.host, listening] at notified
      exact ⟨rfl, (told _ _).trans (kept happening happened), notified⟩

/-- What a listener is answered to a depth can be carried out, if its calls can with one writer more at work. -/
theorem runs_carriedOut (taken : fleet.undertaking? request = some undertaking) (free : undertaking.cache.hold = .free)
    (manned : Manned writers fleet) (room : fleet.caches.size ≤ depth + writers.length)
    (deeper : ∀ {writers calls} {fleet : Fleet Key Value}, Manned writers fleet →
      fleet.caches.size < depth + writers.length →
      ∃ trace, CarriedOut [⟨writers, calls, fleet, reactTo depth calls fleet⟩] trace) :
    ∃ trace, CarriedOut (undertaking.runs (reactTo depth) fleet writers) trace := by
  apply carriedOut_of_each
  intro run made
  obtain ⟨waiting, holds, answered⟩ := runs_reactTo undertaking depth fleet writers run made
  have size : run.before.caches.size = fleet.caches.size := (size_of_holds holds).trans (Array.size_modify ..)
  have known : run = ⟨undertaking.number :: writers, run.calls, run.before, reactTo depth run.calls run.before⟩ := by
    rw [← waiting, ← answered]
  rw [known]
  exact deeper ((manned.begin taken free).of_holds holds) (by rw [size, List.length_cons]; omega)

theorem performEach_carriedOut (deeper : ∀ {writers calls} {fleet : Fleet Key Value}, Manned writers fleet →
      fleet.caches.size < depth + writers.length →
      ∃ trace, CarriedOut [⟨writers, calls, fleet, reactTo depth calls fleet⟩] trace) :
    (calls : List (Call Key Value)) → ∀ {writers} {fleet : Fleet Key Value}, Manned writers fleet →
      fleet.caches.size ≤ depth + writers.length →
      ∃ trace, CarriedOut [⟨writers, calls, fleet, performEach (reactTo depth) calls fleet⟩] trace
  | [], _, _, _, _ => by
      rw [performEach]
      exact ⟨[], .finished .nothing⟩
  | request :: rest, writers, fleet, manned, room => by
      have within : ∃ inner, CarriedOut (nested (reactTo depth) writers request fleet) inner := by
        rw [nested]
        cases taken : fleet.undertaking? request with
        | some undertaking =>
            exact runs_carriedOut taken (perform_undertaking taken (reactTo depth)).1 manned room deeper
        | none =>
            cases sought : fleet.search? request with
            | none => exact ⟨[], .nothing⟩
            | some place =>
                obtain ⟨number, cache, calls⟩ := place
                have smaller := sizeOf_search sought
                have found := (find?_eq_some_iff.mp (search?_eq_some sought).2.1).2
                have shared := (perform_search sought (reactTo depth)).1
                have idle : cache.hold ≠ .held .exclusive := by
                  intro exclusive
                  rw [exclusive] at shared
                  cases shared
                have size : (fleet.hold number .shared).caches.size = fleet.caches.size := Array.size_modify ..
                exact performEach_carriedOut deeper calls (manned.hold found idle .shared) (size ▸ room)
      obtain ⟨inner, within⟩ := within
      have holds := answer_holds depth request fleet
      obtain ⟨trace, further⟩ :=
        performEach_carriedOut deeper rest (manned.of_holds holds) (size_of_holds holds ▸ room)
      rw [performEach]
      exact ⟨_, .called (reactTo depth) within further⟩
termination_by calls => sizeOf calls
decreasing_by
  all_goals simp only [List.cons.sizeOf_spec]
  all_goals omega

/-- Calls can be carried out, and come to what they come to when callbacks are cut off at a depth, if no more caches than
that are without a writer. -/
theorem reactTo_carriedOut (depth : Nat) : ∀ {writers calls} {fleet : Fleet Key Value}, Manned writers fleet →
    fleet.caches.size < depth + writers.length →
    ∃ trace, CarriedOut [⟨writers, calls, fleet, reactTo depth calls fleet⟩] trace := by
  induction depth with
  | zero =>
      intro writers calls fleet manned room
      have bounded := manned.length_le
      omega
  | succ depth ih =>
      intro writers calls fleet manned room
      exact performEach_carriedOut ih calls manned (by omega)

/-- Calls from outside come to what they come to when callbacks are cut off where they would nest deeper than there are
caches. -/
theorem converse_eq (fleet : Fleet Key Value) (requests : List (Call Key Value)) :
    fleet.converse requests = performEach (reactTo fleet.caches.size) requests fleet := by
  induction requests generalizing fleet with
  | nil =>
      rw [performEach]
      rfl
  | cons request rest ih =>
      let answered := answer (reactTo fleet.caches.size) request fleet
      have size : answered.caches.size = fleet.caches.size := size_of_holds (answer_holds _ request fleet)
      have further := ih answered
      rw [size] at further
      rw [performEach]
      exact further

/-- Whatever calls are made from outside, one after the other, they can be carried out to their end. -/
theorem converse_carriedOut (fleet : Fleet Key Value) (requests : List (Call Key Value)) :
    ∃ trace, CarriedOut [⟨[], requests, fleet, fleet.converse requests⟩] trace := by
  have nobody : Manned [] fleet := ⟨List.nodup_nil, nofun⟩
  rw [converse_eq]
  exact performEach_carriedOut (reactTo_carriedOut fleet.caches.size) requests nobody (Nat.le_add_right _ _)

/-- Calls as they are begun one after the other. -/
def begun (react : Reaction Key Value) (writers : List Nat) :
    List (Call Key Value) → Fleet Key Value → List (Frame Key Value)
  | [], _ => []
  | request :: rest, fleet => .begin react writers request fleet :: begun react writers rest (answer react request fleet)

/-- A call in whose middle nothing is asked for. -/
def alone (react : Reaction Key Value) (frame : Frame Key Value) : Bool :=
  (nested react frame.writers frame.request frame.fleet).isEmpty

/-- Where nothing is asked for in the middle of calls, there is no more to them than that they are begun. -/
theorem begun_carriedOut {react : Reaction Key Value} {calls : List (Call Key Value)} {fleet : Fleet Key Value}
    (each : (begun react writers calls fleet).all (alone react) = true) :
    CarriedOut [⟨writers, calls, fleet, performEach react calls fleet⟩] (begun react writers calls fleet) := by
  induction calls generalizing fleet with
  | nil =>
      rw [performEach]
      exact .finished .nothing
  | cons request rest ih =>
      rw [begun, List.all_cons, Bool.and_eq_true] at each
      have nobody : nested react writers request fleet = [] := List.isEmpty_iff.mp each.1
      have within : CarriedOut (nested react writers request fleet) [] := by
        rw [nobody]
        exact .nothing
      rw [performEach]
      exact .called react within (ih each.2)

theorem converse_begun {requests : List (Call Key Value)} (fleet : Fleet Key Value)
    (each : (begun (reactTo fleet.caches.size) [] requests fleet).all (alone (reactTo fleet.caches.size)) = true) :
    CarriedOut [⟨[], requests, fleet, fleet.converse requests⟩]
      (begun (reactTo fleet.caches.size) [] requests fleet) := by
  rw [converse_eq]
  exact begun_carriedOut each

/-- What is asked for in the middle of a call, as it is begun, if nothing more is asked for in the middle of that. -/
def askedFor (depth : Nat) (writers : List Nat) (request : Call Key Value) (fleet : Fleet Key Value) :
    List (Frame Key Value) :=
  (nested (reactTo (depth + 1)) writers request fleet).flatMap fun run =>
    begun (reactTo depth) run.writers run.calls run.before

theorem runs_begun {runs : List (Run Key Value)}
    (answered : ∀ run ∈ runs, run.after = performEach (reactTo depth) run.calls run.before)
    (each : (runs.flatMap fun run => begun (reactTo depth) run.writers run.calls run.before).all
      (alone (reactTo depth)) = true) :
    CarriedOut runs (runs.flatMap fun run => begun (reactTo depth) run.writers run.calls run.before) := by
  induction runs with
  | nil => exact .nothing
  | cons run rest ih =>
      obtain ⟨first, others⟩ := List.forall_mem_cons.mp answered
      rw [List.flatMap_cons, List.all_append, Bool.and_eq_true] at each
      have made := begun_carriedOut each.1
      rw [← first] at made
      exact made.append (ih others each.2)

theorem nested_askedFor (quiet : fleet.search? request = none)
    (each : (askedFor depth writers request fleet).all (alone (reactTo depth)) = true) :
    CarriedOut (nested (reactTo (depth + 1)) writers request fleet) (askedFor depth writers request fleet) := by
  refine runs_begun ?_ each
  intro run made
  cases taken : fleet.undertaking? request with
  | none =>
      rw [nested, taken, quiet] at made
      cases made
  | some undertaking =>
      rw [nested, taken] at made
      exact (runs_reactTo undertaking (depth + 1) fleet writers run made).2.2

theorem converse_askedFor (size : fleet.caches.size = depth + 1) (quiet : fleet.search? request = none)
    (each : (askedFor depth [] request fleet).all (alone (reactTo depth)) = true) :
    CarriedOut [⟨[], [request], fleet, fleet.converse [request]⟩]
      (.begin (reactTo fleet.caches.size) [] request fleet :: askedFor depth [] request fleet) := by
  have made := CarriedOut.called (reactTo (depth + 1)) (nested_askedFor quiet each) (.finished .nothing)
  rw [List.append_nil, ← size] at made
  exact made

end Existence

end Fleet

end LayeredCache
