import LayeredCache.Proofs.Fleet.Timeline
import LayeredCache.Proofs.Fleet.Visibility

/-! Keys that a cache does not show. Whatever is called, by users or by listeners, a key that shows no value shows none
until one of the deeds on the cache puts it: time only makes what is dead older, and no other deed gives it a later stamp. -/

set_option autoImplicit false

namespace LayeredCache

variable {Key Value : Type} [DecidableEq Key]

namespace Fleet

/-- Whether a cache shows a value for a key. -/
def shows (fleet : Fleet Key Value) (number : Nat) (key : Key) : Bool :=
  fleet.caches[number]?.any fun cache => cache.tiers.containsKey (fleet.moment cache) key

variable {fleet before after now later : Fleet Key Value} {number : Nat} {cache : Cache Key Value} {key : Key}
  {trace past more : List (Frame Key Value)} {start tiers : Tiers Key Value}

theorem shows_eq (found : fleet.caches[number]? = some cache) (key : Key) :
    fleet.shows number key = cache.tiers.containsKey (fleet.momentOf number) key := by
  rw [shows, found, ← moment_eq found]
  rfl

variable [BEq Value]

/-- A call leaves a key hidden that none of its deeds puts. -/
theorem hides_frame {frame : Frame Key Value} (answered : frame.AnsweredBy after) (dated : frame.fleet.Dated)
    (few : after.reclaims < 2 ^ 64) (unput : ∀ done ∈ frame.deedsOn number, ∀ value, done.operation ≠ .put key value)
    (course : start.Course (frame.deedsOn number) tiers) (hides : start.Hides (frame.fleet.momentOf number) key) :
    tiers.Hides (frame.fleet.momentOf number) key := by
  obtain ⟨react, begun, each, order⟩ := answered
  rw [begun] at course unput
  rcases deedsOn_cases react frame.writers frame.request frame.fleet number with idle | ⟨undertaking, taken, rfl, deeds⟩
  · rw [idle] at course
    have same : tiers = start := course.leads
    rw [same]
    exact hides
  · rw [deeds] at course unput
    obtain ⟨rfl, worked⟩ := course_deeds course
    have found := (find?_eq_some_iff.mp (undertaking?_eq_some taken).2.1).2
    have valid := (dated.reachable undertaking.number undertaking.cache found).valid
    rw [worked, Undertaking.worked]
    by_cases other : undertaking.operation = .purgeSoft
    · rw [other]
      exact hides.purgeSoft (undertaking.host react) _
    · rw [nested, taken] at each
      -- Whatever the callbacks did, the moment read after the purge is not before the call.
      obtain ⟨purged, working, -⟩ := elapsed_purge other each
      have ended := elapsed_answer taken (purged.trans working)
      have fewThen := (working.trans (ended.trans order)).reclaims.trans_lt few
      rw [(Tiers.operateHeld_cases ..).resolve_left fun purges => other purges.1]
      refine hides.operatePurged valid ?_ ?_
      · intro recording
        rw [Undertaking.host, moment_record, host_moment]
        have since := (Passed.hold frame.fleet undertaking.number .exclusive).toElapsed.trans purged
        exact since.moment_before dated fewThen undertaking.number
      · intro written
        obtain ⟨done, listed, value, asked⟩ := Tiers.put_of_written written
        exact unput done listed value asked

/-- From what is seen of a cache to what is seen of it later, its present moves forward from call to call. -/
theorem Between.rising {calls : List (Call Key Value)} (carried : CarriedOut [⟨[], calls, before, after⟩] trace)
    (dated : before.Dated) (few : after.reclaims < 2 ^ 64) (seen : Between number trace after past now)
    (again : Between number trace after (past ++ more) later) :
    (now.momentOf number :: (more.map (fun frame => frame.fleet.momentOf number) ++ [later.momentOf number])).IsChain
      Moment.Before := by
  obtain ⟨others, whole⟩ := again.split
  obtain ⟨rest, same⟩ := seen.split
  rw [whole, List.map_append, List.append_assoc] at same
  -- Both cut the same list, so that what is seen first heads what was begun since.
  have head : more.map Frame.fleet ++ later :: others = now :: rest := List.append_cancel_left same
  have ordered := (carried.composes paced_composed).rising dated few number
  rw [whole, List.map_append, List.append_assoc] at ordered
  have onward : (more.map Frame.fleet ++ [later]).Pairwise fun earlier later =>
      (earlier.momentOf number).Before (later.momentOf number) := by
    refine (List.pairwise_append.mp ordered).2.1.sublist ?_
    exact (List.Sublist.refl _).append (List.singleton_sublist.mpr List.mem_cons_self)
  have moments := (List.pairwise_map.mpr onward).isChain
  rw [List.map_append, List.map_map, List.map_singleton] at moments
  cases more with
  | nil =>
      obtain ⟨rfl, -⟩ := List.cons.inj head
      exact List.isChain_cons_cons.mpr ⟨.refl _, moments⟩
  | cons frame more =>
      obtain ⟨rfl, -⟩ := List.cons.inj head
      exact List.isChain_cons_cons.mpr ⟨.refl _, moments⟩

/-- A key that a cache does not show is hidden whenever the cache is seen later, if no deed on it puts the key. -/
theorem hides_between {calls : List (Call Key Value)} (carried : CarriedOut [⟨[], calls, before, after⟩] trace)
    (dated : before.Dated) (few : after.reclaims < 2 ^ 64) (seen : Between number trace after past now)
    (again : Between number trace after (past ++ more) later) (unseen : now.shows number key = false)
    (unput : ∀ done ∈ more.flatMap (Frame.deedsOn number), ∀ value, done.operation ≠ .put key value)
    (found : later.caches[number]? = some cache) : cache.tiers.Hides (later.momentOf number) key := by
  have paced : Paced trace before after := carried.composes paced_composed
  obtain ⟨first, stored⟩ := tiers?_of_later carried again.mem_points found
  obtain ⟨here, present, course⟩ := seen.shown.course carried stored
  obtain ⟨left, reached, whole⟩ := again.shown.course carried stored
  obtain rfl : cache.tiers = left := Option.some.inj ((congrArg (Option.map Cache.tiers) found).symm.trans reached)
  rw [List.flatMap_append] at whole
  obtain ⟨between, begun, onward⟩ := whole.cut
  obtain rfl : between = here := begun.leads.trans course.leads.symm
  -- Stamps are in the past when the key does not show, and so what is dead then is dead for good.
  have hidden : between.Hides (now.momentOf number) key := by
    obtain ⟨cache, caches, rfl⟩ := Option.map_eq_some_iff.mp present
    have passed := paced.passed_points now seen.mem_points
    have aged := (passed.1.dated dated).aged (passed.2.reclaims.trans_lt few) number cache caches
    rw [moment_eq caches] at aged
    rw [shows_eq caches] at unseen
    exact Tiers.hides_of_containsKey aged unseen
  let holds (moment : Moment) (tiers : Tiers Key Value) : Prop := tiers.Hides moment key
  have kept : holds (later.momentOf number) cache.tiers := by
    refine kept_along (momentOf · number) (fun order hides => hides.mono order) ?_
      (seen.rising carried dated few again) onward hidden
    intro frame listed start tiers course hides
    have begun : frame ∈ trace := again.subset (List.mem_append_right _ listed)
    refine hides_frame (paced.answered frame begun) ((paced.within frame begun).1.dated dated) few ?_ course hides
    exact fun done does => unput done (List.mem_flatMap.mpr ⟨frame, listed, does⟩)
  exact kept

/-- A key that shows no value shows none, and has none reported, until it is put: not by tiers, in whatever runs of
operations and time, nor by a cache of a fleet, whatever is called by users or by listeners. Of a call that copies entries,
the deeds tell which it puts. -/
theorem values_never_return :
    (∀ (tiers : Tiers Key Value) (moment : Moment) (key : Key), tiers.Lived moment →
      tiers.containsKey moment key = false →
      ∀ (after : Tiers Key Value) (now : Moment), Tiers.Unwritten key tiers moment after now →
        after.containsKey now key = false ∧
          ∀ (World : Type) (host : Host World Key Value) (world : World), host.Forward → host.moment world = now →
            ∀ operation : Operation Key Value, operation.sought? = some key →
              (Tiers.operate host operation after world).1.Empty ∧
                (Tiers.serve host operation after world).1.Empty) ∧
    ∀ (settings : List Settings) (requests : List (Call Key Value)) (trace : List (Frame Key Value)),
      let ended := (ofSettings settings).converse requests
      CarriedOut [⟨[], requests, ofSettings settings, ended⟩] trace → ended.reclaims < 2 ^ 64 →
      ∀ (number : Nat) (past more : List (Frame Key Value)) (now later : Fleet Key Value) (key : Key),
        Between number trace ended past now → Between number trace ended (past ++ more) later →
        now.shows number key = false →
        (∀ done ∈ more.flatMap (Frame.deedsOn number), ∀ value, done.operation ≠ .put key value) →
          later.shows number key = false ∧
            ∀ (depth handle : Nat) (action : Action Key Value) (cache : Cache Key Value),
              later.find? handle = some (number, cache) → action.sought? = some key →
              (perform (reactTo depth) (.mk handle action) later).2.reclaims < 2 ^ 64 →
                (perform (reactTo depth) (.mk handle action) later).1.Empty := by
  constructor
  · intro tiers moment key lived unseen after now run
    have hides := Tiers.hides_of_containsKey lived.aged unseen
    obtain ⟨valid, hidden⟩ := run.hides lived.reachable.valid hides
    refine ⟨hidden.containsKey_eq_false (.refl now), ?_⟩
    rintro World host world forward rfl operation sought
    constructor
    · exact hidden.answer valid (Tiers.reads_of_forward forward (.refl _)) sought
    · exact hidden.answerServed valid forward sought
  · intro settings requests trace ended carried few number past more now later key seen again unseen unput
    have dated : (ofSettings settings : Fleet Key Value).Dated := ofSettings_dated settings
    have hidden {cache : Cache Key Value} (found : later.caches[number]? = some cache) :
        cache.tiers.Hides (later.momentOf number) key := hides_between carried dated few seen again unseen unput found
    constructor
    · cases found : later.caches[number]? with
      | none => rw [shows, found]; rfl
      | some cache =>
          rw [shows_eq found]
          exact (hidden found).containsKey_eq_false (.refl _)
    · intro depth handle action cache located sought fewThen
      have found := (find?_eq_some_iff.mp located).2
      have concealed := hidden found
      rw [← moment_eq found] at concealed
      have passed := ((carried.composes paced_composed).passed_points later again.mem_points).1
      exact perform_hidden (passed.dated dated) located concealed fewThen sought

/-- A reclaimed key, still stored, does not come back when it is pinned and unpinned, nor with more room, nor when the cache
is copied and gets the copies back. -/
theorem reclaimed_key_stays_away :
    let settings : Settings := { cacheSize := 1, softReferenceSize := 1 }
    let fleet : Fleet Nat Nat := .ofSettings [settings, settings]
    let requests : List (Call Nat Nat) :=
      [.mk 0 (.put 1 10), .mk 0 (.put 2 20), .mk 0 .reclaim, .mk 1 (.putAll 0 true), .mk 0 (.pin 1), .mk 0 (.unpin 1),
        .mk 0 (.setCacheSize 3), .mk 0 (.putAll 1 true)]
    let frames := begun (reactTo fleet.caches.size) [] requests fleet
    let ended := fleet.converse requests
    (frames[3]?.bind fun frame => frame.fleet.tiers? 0).map (fun tiers => tiers.soft.storedSize) = some 1 ∧
      ended.shows 0 1 = false ∧ (ended.call (.mk 0 (.get 1))).1.Empty := by
  intro settings fleet requests frames ended
  have each : frames.all (alone (reactTo fleet.caches.size)) = true := by decide +kernel
  have few : ended.reclaims < 2 ^ 64 := by decide +kernel
  have fewThen : (ended.call (.mk 0 (.get 1))).2.reclaims < 2 ^ 64 := by decide +kernel
  have stored : (frames[3]?.bind fun frame => frame.fleet.tiers? 0).map (fun tiers => tiers.soft.storedSize) = some 1 := by
    decide +kernel
  have reclaimed : frames[3]?.map (fun frame => (frame.fleet.shows 0 1, frame.fleet.holds[0]?)) =
      some (false, some .free) := by decide +kernel
  have unput : ((frames.drop 3).flatMap (Frame.deedsOn 0)).all (fun done =>
      match done.operation with | .put key _ => key ≠ 1 | _ => true) = true := by decide +kernel
  have numbered : (ended.find? 0).map Prod.fst = some 0 := by decide +kernel
  obtain ⟨⟨number, cache⟩, located, same⟩ := Option.map_eq_some_iff.mp numbered
  obtain rfl : number = 0 := same
  obtain ⟨frame, third, facts⟩ := Option.map_eq_some_iff.mp reclaimed
  obtain ⟨unseen, free⟩ := Prod.mk.inj facts
  have carried : CarriedOut [⟨[], requests, fleet, ended⟩] frames := converse_begun fleet each
  clear_value frames requests
  obtain ⟨long, rfl⟩ := List.getElem?_eq_some_iff.mp third
  have split : frames = frames.take 3 ++ frames[3] :: frames.drop 4 := by
    rw [List.getElem_cons_drop, List.take_append_drop]
  have seen : Between 0 frames ended (frames.take 3) frames[3].fleet := by
    refine .begun split ?_
    rw [busy_iff, free]
    exact nofun
  have again : Between 0 frames ended (frames.take 3 ++ frames.drop 3) ended := by
    rw [List.take_append_drop]
    exact .ended
  have spared : ∀ done ∈ (frames.drop 3).flatMap (Frame.deedsOn 0), ∀ value, done.operation ≠ .put 1 value := by
    intro done listed value asked
    have other := List.all_eq_true.mp unput done listed
    rw [asked] at other
    cases other
  obtain ⟨dark, empty⟩ := values_never_return.2 _ requests frames carried few 0 _ _ _ _ 1 seen again unseen spared
  exact ⟨stored, dark, empty _ 0 (.get 1) cache located rfl fewThen⟩

end Fleet

end LayeredCache
