import LayeredCache.Proofs.Fleet.Determinacy

/-! What is done to one cache of a fleet. Calls come to whatever they come to, but the tiers of a cache only ever change by
the deeds of its writers, one after the other: what others do in the middle of a writer's work leaves its tiers alone. -/

set_option autoImplicit false

namespace LayeredCache

variable {Key Value : Type} [DecidableEq Key]

namespace Fleet

def tiers? (fleet : Fleet Key Value) (number : Nat) : Option (Tiers Key Value) :=
  fleet.caches[number]?.map Cache.tiers

variable {fleet before after between world : Fleet Key Value} {number : Nat} {cache : Cache Key Value}
  {change : Cache Key Value → Cache Key Value} {writers : List Nat} {request : Call Key Value}
  {undertaking : Undertaking Key Value} {react : Reaction Key Value} {trace more : List (Frame Key Value)}

theorem tiers?_hold (fleet : Fleet Key Value) (number other : Nat) (mode : LockMode) :
    (fleet.hold number mode).tiers? other = fleet.tiers? other :=
  tiers_adjust fleet number other fun _ => rfl

theorem tiers?_record (fleet : Fleet Key Value) (number other : Nat) (recording : Metrics.Recording) :
    (fleet.adjust number (Cache.record recording)).tiers? other = fleet.tiers? other :=
  tiers_adjust fleet number other fun _ => rfl

theorem tiers?_undertaking (taken : fleet.undertaking? request = some undertaking) :
    fleet.tiers? undertaking.number = some undertaking.cache.tiers := by
  rw [tiers?, (find?_eq_some_iff.mp (undertaking?_eq_some taken).2.1).2]
  rfl

theorem Aside.tiers? {outcome : Reply Key Value × Fleet Key Value} (aside : fleet.Aside request outcome)
    (number : Nat) : outcome.2.tiers? number = fleet.tiers? number := by
  cases aside with
  | refused refused => exact tiers?_record fleet _ number _
  | idle => rfl
  | looked => exact (tiers?_record _ _ number _).trans (tiers?_record fleet _ number _)
  | reclaimed => exact tiers_adjust fleet _ number fun _ => rfl
  | reset => exact tiers_adjust fleet _ number fun _ => rfl
  | cloned => rfl
  | advanced => rfl

/-- From one fleet to the next, the tiers of a cache have gone the way of the deeds done on it. Where the cache is held by
a writer that has not ended yet, nothing is done on it. -/
structure Coursed (number : Nat) (trace : List (Frame Key Value)) (before after : Fleet Key Value) : Prop where
  holds : after.holds = before.holds
  busy : before.Busy number → ∀ frame ∈ trace, frame.fleet.Busy number ∧ frame.deedsOn number = []
  course : ∀ {tiers}, before.tiers? number = some tiers →
    ∃ later, after.tiers? number = some later ∧ Tiers.Course tiers (trace.flatMap (Frame.deedsOn number)) later
  seen : ∀ {tiers}, before.tiers? number = some tiers → ∀ {past frame future}, trace = past ++ frame :: future →
    ¬frame.fleet.Busy number → ∃ now, frame.fleet.tiers? number = some now ∧
      Tiers.Course tiers (past.flatMap (Frame.deedsOn number)) now

theorem Busy.of_holds (busy : before.Busy number) (same : after.holds = before.holds) : after.Busy number := by
  rw [busy_iff, same, ← busy_iff]
  exact busy

theorem split_append {Item : Type} {items more past future : List Item} {item : Item}
    (split : items ++ more = past ++ item :: future) :
    (∃ rest, items = past ++ item :: rest) ∨ ∃ first, past = items ++ first ∧ more = first ++ item :: future := by
  rcases List.append_eq_append_iff.mp split with ⟨first, rfl, rest⟩ | ⟨rest, rfl, first⟩
  · exact .inr ⟨first, rfl, rest⟩
  · cases rest with
    | nil => exact .inr ⟨[], (List.append_nil _).symm.trans (List.append_nil _).symm, first.symm⟩
    | cons head tail =>
        obtain ⟨rfl, -⟩ := List.cons.inj first
        exact .inl ⟨tail, rfl⟩

namespace Coursed

/-- Nothing done. -/
theorem same (holds : after.holds = before.holds) (tiers : after.tiers? number = before.tiers? number) :
    Coursed number [] before after where
  holds := holds
  busy _ := nofun
  course stored := ⟨_, tiers.trans stored, .start⟩
  seen _ past _ _ split := by
    cases past <;> cases split

theorem trans (start : Coursed number trace before between) (rest : Coursed number more between after) :
    Coursed number (trace ++ more) before after where
  holds := rest.holds.trans start.holds
  busy busy := by
    intro frame listed
    rcases List.mem_append.mp listed with earlier | later
    · exact start.busy busy frame earlier
    · exact rest.busy (busy.of_holds start.holds) frame later
  course stored := by
    obtain ⟨middle, reached, first⟩ := start.course stored
    obtain ⟨later, left, second⟩ := rest.course reached
    rw [List.flatMap_append]
    exact ⟨later, left, first.append second⟩
  seen stored past frame future split idle := by
    obtain ⟨middle, reached, first⟩ := start.course stored
    rcases split_append split with ⟨rest, early⟩ | ⟨others, rfl, late⟩
    · exact start.seen stored early idle
    · obtain ⟨now, found, second⟩ := rest.seen reached late idle
      rw [List.flatMap_append]
      exact ⟨now, found, first.append second⟩

/-- What neither holds nor tiers show does not matter at the end. -/
theorem left (course : Coursed number trace before between) (holds : after.holds = between.holds)
    (tiers : after.tiers? number = between.tiers? number) : Coursed number trace before after := by
  have whole := course.trans (.same holds tiers)
  rwa [List.append_nil] at whole

theorem noted (course : Coursed number trace before after) (line : Note Key Value) :
    Coursed number trace before (after.note line) :=
  course.left rfl rfl

/-- A frame with nothing done in it but by the calls made in its middle, with at most another cache held meanwhile. -/
theorem around {start : Fleet Key Value} (inner : Coursed number trace start between)
    (busy : before.Busy number → start.Busy number) (begun : start.tiers? number = before.tiers? number)
    (holds : after.holds = before.holds) (ended : after.tiers? number = between.tiers? number)
    {frame : Frame Key Value} (fleet : frame.fleet = before) (idle : frame.deedsOn number = []) :
    Coursed number (frame :: trace) before after where
  holds := holds
  busy held := by
    intro other listed
    rcases List.mem_cons.mp listed with rfl | later
    · exact ⟨fleet ▸ held, idle⟩
    · exact inner.busy (busy held) other later
  course stored := by
    rw [List.flatMap_cons, idle, ended]
    exact inner.course (begun.trans stored)
  seen stored past other future split apart := by
    cases past with
    | nil =>
        obtain ⟨rfl, -⟩ := List.cons.inj split
        exact ⟨_, fleet ▸ stored, .start⟩
    | cons head past =>
        obtain ⟨rfl, rest⟩ := List.cons.inj split
        rw [List.flatMap_cons, idle]
        exact inner.seen (begun.trans stored) rest apart

end Coursed

theorem deedsOn_calm (calm : fleet.undertaking? request = none) (react : Reaction Key Value)
    (writers : List Nat) (number : Nat) : (Frame.begin react writers request fleet).deedsOn number = [] := by
  simp only [Frame.deedsOn, Frame.begin, calm, Option.map_none, reduceCtorEq, ↓reduceIte]

theorem deedsOn_taken (taken : fleet.undertaking? request = some undertaking) (react : Reaction Key Value)
    (writers : List Nat) (number : Nat) :
    (Frame.begin react writers request fleet).deedsOn number =
      if undertaking.number = number then undertaking.deeds react fleet else [] := by
  simp only [Frame.deedsOn, Frame.begin, taken, Option.map_some, Option.some.injEq, Option.elim_some]

/-- A call that does something to a cache takes it for itself. -/
theorem deedsOn_cases (react : Reaction Key Value) (writers : List Nat) (request : Call Key Value)
    (fleet : Fleet Key Value) (number : Nat) :
    (Frame.begin react writers request fleet).deedsOn number = [] ∨
      ∃ undertaking, fleet.undertaking? request = some undertaking ∧ undertaking.number = number ∧
        (Frame.begin react writers request fleet).deedsOn number = undertaking.deeds react fleet := by
  cases taken : fleet.undertaking? request with
  | none => exact .inl (deedsOn_calm taken react writers number)
  | some undertaking =>
      have deeds := deedsOn_taken taken react writers number
      split at deeds
      next here => exact .inr ⟨undertaking, rfl, here, deeds⟩
      next => exact .inl deeds

/-- The deeds of a writer tell which tiers it finds and which it leaves. -/
theorem course_deeds {start tiers : Tiers Key Value} (course : start.Course (undertaking.deeds react fleet) tiers) :
    start = undertaking.cache.tiers ∧ tiers = (undertaking.worked react fleet).2.1 := by
  let held := fleet.hold undertaking.number .exclusive
  obtain ⟨rest, purges⟩ : ∃ rest, undertaking.deeds react fleet =
      [] ++ Tiers.deed (undertaking.host react) .purgeSoft undertaking.cache.tiers held :: rest := Tiers.deedsHeld_purge ..
  have begun : undertaking.cache.tiers = start := (course.split purges).1.leads
  subst begun
  have leads := Tiers.Course.operateHeld (undertaking.host react) undertaking.operation undertaking.cache.tiers held
  exact ⟨rfl, course.leads.trans leads.leads.symm⟩

/-- A writer leaves the tiers of its cache where its deeds lead, since nothing else is done on it meanwhile. -/
theorem Coursed.worked (taken : fleet.undertaking? request = some undertaking)
    (free : undertaking.cache.hold = .free)
    (inner : Coursed undertaking.number trace (fleet.hold undertaking.number .exclusive)
      (undertaking.worked react fleet).2.2) (writers : List Nat) :
    Coursed undertaking.number (.begin react writers request fleet :: trace) fleet
      ((undertaking.after react fleet).adjust undertaking.number request.action.install) := by
  have found := (find?_eq_some_iff.mp (undertaking?_eq_some taken).2.1).2
  have stored := tiers?_undertaking taken
  have idle : ¬fleet.Busy undertaking.number := by
    refine not_busy found ?_
    rw [free]
    exact nofun
  have held := busy_hold found
  have quiet : trace.flatMap (Frame.deedsOn undertaking.number) = [] :=
    List.flatMap_eq_nil_iff.mpr fun frame listed => (inner.busy held frame listed).2
  have done := deedsOn_taken taken react writers undertaking.number
  rw [if_pos rfl] at done
  constructor
  · exact holds_worked taken free inner.holds
  · intro busy
    exact absurd busy idle
  · intro tiers here
    obtain rfl := Option.some.inj (stored.symm.trans here)
    rw [List.flatMap_cons, done, quiet, List.append_nil]
    refine ⟨_, ?_, Tiers.Course.operateHeld _ undertaking.operation _ _⟩
    have present := inner.course ((tiers?_hold fleet _ _ _).trans here)
    obtain ⟨later, reached, -⟩ := present
    obtain ⟨cache, now, -⟩ := Option.map_eq_some_iff.mp reached
    have kept := tiers_adjust (undertaking.after react fleet) undertaking.number undertaking.number
      (beside_install request.action).tiers
    rw [tiers?, kept, Undertaking.after, caches_work, if_pos rfl]
    have here : (undertaking.worked react fleet).2.2.caches[undertaking.number]? = some cache := now
    rw [Undertaking.worked, Undertaking.host] at here
    rw [here]
    rfl
  · intro tiers here past frame future split apart
    obtain rfl := Option.some.inj (stored.symm.trans here)
    cases past with
    | nil =>
        obtain ⟨rfl, -⟩ := List.cons.inj split
        exact ⟨_, here, .start⟩
    | cons head past =>
        obtain ⟨-, rest⟩ := List.cons.inj split
        have listed : frame ∈ trace := by
          rw [rest]
          exact List.mem_append_right past List.mem_cons_self
        exact absurd (inner.busy held frame listed).1 apart

theorem tiers?_worked_of_ne (other : undertaking.number ≠ number) :
    ((undertaking.after react fleet).adjust undertaking.number request.action.install).tiers? number =
      (undertaking.worked react fleet).2.2.tiers? number := by
  rw [tiers?, tiers_adjust _ _ _ (beside_install request.action).tiers, Undertaking.after, caches_work, if_neg other]
  rfl

/-- What is carried out goes the way of the deeds done on each cache. -/
theorem coursed_coherent [BEq Value] (number : Nat) :
    @Coherent Key Value _ _ (fun _ trace before after => Coursed number trace before after)
      fun _ _ trace start world => Coursed number trace start world where
  refl _ _ := .same rfl rfl
  trans start rest := start.trans rest
  begun _ _ _ := .same rfl rfl
  recorded recording working := working.left (holds_record _ _ recording) (tiers?_record _ _ number recording)
  notified {writer _ _ _ _ world _} listener event working made := by
    have told : (listener.told writer event world).holds = world.holds ∧
        (listener.told writer event world).tiers? number = world.tiers? number := by
      rw [Listener.told]
      split
      · exact ⟨rfl, rfl⟩
      · exact ⟨rfl, rfl⟩
    exact (working.left told.1 told.2).trans made
  aside {fleet _ _} react writers calm aside :=
    have nothing : Coursed number [] fleet fleet := .same rfl rfl
    (nothing.around id rfl aside.holds (aside.tiers? number) rfl (deedsOn_calm calm react writers number)).noted _
  searched {fleet after request other cache calls trace} react writers reply calm sought shared made := by
    have found := (find?_eq_some_iff.mp (search?_eq_some sought).2.1).2
    refine (made.around ?_ (tiers?_hold fleet other number .shared) (holds_searched sought made.holds) ?_ rfl
      (deedsOn_calm calm react writers number)).noted _
    · intro busy
      refine busy.adjust ?_
      rintro rfl
      refine absurd busy (not_busy found ?_)
      intro exclusive
      rw [exclusive] at shared
      cases shared
    · exact tiers_adjust after other number fun _ => rfl
  worked {fleet request undertaking trace} react writers reply taken free working := by
    by_cases here : undertaking.number = number
    · subst here
      exact (Coursed.worked taken free working writers).noted _
    · have quiet := deedsOn_taken taken react writers number
      rw [if_neg here] at quiet
      refine (working.around ?_ (tiers?_hold fleet _ number .exclusive) (holds_worked taken free working.holds)
        (tiers?_worked_of_ne here) rfl quiet).noted _
      exact fun busy => busy.adjust fun same => absurd same.symm here

/-- What can be seen of a cache while calls are carried out, with the deeds done on it until then: what every call begins
with that finds no writer at work on it, and what is there in the end. -/
inductive Shown (number : Nat) (trace : List (Frame Key Value)) (after : Fleet Key Value) :
    List (Deed Key Value) → Fleet Key Value → Prop where
  | begun {past future : List (Frame Key Value)} {frame : Frame Key Value} (split : trace = past ++ frame :: future)
      (idle : ¬frame.fleet.Busy number) : Shown number trace after (past.flatMap (Frame.deedsOn number)) frame.fleet
  | ended : Shown number trace after (trace.flatMap (Frame.deedsOn number)) after

/-- Whatever is seen of a cache, its tiers have gone the way of its deeds. -/
theorem Shown.course [BEq Value] {calls : List (Call Key Value)}
    (carried : CarriedOut [⟨writers, calls, before, after⟩] trace) {deeds : List (Deed Key Value)}
    {now : Fleet Key Value} (shown : Shown number trace after deeds now) {tiers : Tiers Key Value}
    (stored : before.tiers? number = some tiers) :
    ∃ later, now.tiers? number = some later ∧ Tiers.Course tiers deeds later := by
  have coursed := carried.leaves (coursed_coherent number)
  cases shown with
  | begun split idle => exact coursed.seen stored split idle
  | ended => exact coursed.course stored

/-- What holds of the tiers of a cache, and goes on to hold as time passes, holds after calls if it holds after the deeds
of each of them. -/
theorem kept_along {Time : Type} (time : Fleet Key Value → Time) {order : Time → Time → Prop}
    {holds : Time → Tiers Key Value → Prop} {first last : Time} {start tiers : Tiers Key Value}
    (later : ∀ {earlier next tiers}, order earlier next → holds earlier tiers → holds next tiers)
    (each : ∀ frame ∈ trace, ∀ {start tiers}, Tiers.Course start (frame.deedsOn number) tiers →
      holds (time frame.fleet) start → holds (time frame.fleet) tiers)
    (rising : (first :: (trace.map (fun frame => time frame.fleet) ++ [last])).IsChain order)
    (course : start.Course (trace.flatMap (Frame.deedsOn number)) tiers) (begun : holds first start) :
    holds last tiers := by
  induction trace generalizing start first with
  | nil =>
      have same : tiers = start := course.leads
      rw [same]
      exact later (List.isChain_cons_cons.mp rising).1 begun
  | cons frame rest ih =>
      obtain ⟨here, elsewhere⟩ := List.forall_mem_cons.mp each
      obtain ⟨next, onward⟩ := List.isChain_cons_cons.mp rising
      rw [List.flatMap_cons] at course
      obtain ⟨between, reached, left⟩ := course.cut
      exact ih elsewhere onward left (here reached (later next begun))

/-- What there is to see in the course of calls: what each of them begins with, and what is there in the end. -/
def points (trace : List (Frame Key Value)) (after : Fleet Key Value) : List (Fleet Key Value) :=
  trace.map Frame.fleet ++ [after]

/-- A cache that is there at any time has been there from the start. -/
theorem tiers?_of_later [BEq Value] {calls : List (Call Key Value)}
    (carried : CarriedOut [⟨[], calls, before, after⟩] trace) {now : Fleet Key Value} (seen : now ∈ points trace after)
    {cache : Cache Key Value} (found : now.caches[number]? = some cache) :
    ∃ tiers, before.tiers? number = some tiers := by
  have size : now.caches.size = before.caches.size := by
    rcases List.mem_append.mp seen with begun | ended
    · obtain ⟨frame, listed, rfl⟩ := List.mem_map.mp begun
      have nobody : Manned [] before := ⟨List.nodup_nil, nofun⟩
      exact ((carried.leaves wellNested_coherent).2 nobody frame listed).2
    · rw [List.mem_singleton.mp ended]
      exact size_of_holds (carried.leaves (coursed_coherent number)).holds
  have bound := (Array.getElem?_eq_some_iff.mp found).choose
  rw [size] at bound
  exact ⟨_, congrArg (Option.map Cache.tiers) (Array.getElem?_eq_getElem bound)⟩

end Fleet

end LayeredCache
