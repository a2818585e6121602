import LayeredCache.Proofs.Fleet.Deeds
import LayeredCache.Proofs.Fleet.Discretion
import LayeredCache.Proofs.Tiers.Recordings

/-! What a call has counted: the hold that it could not have; or else what it looked up and what its deeds count. Nothing
that is called in the middle makes a difference to that. -/

set_option autoImplicit false

namespace LayeredCache

open Metrics (Recording Tally)

variable {World Key Value : Type} [DecidableEq Key]

/-- What is counted of a lookup: nothing where a write is needed, which counts when it is made. -/
def Tiers.lookupRecordings (tiers : Tiers Key Value) (key : Key) : Lookup Value → List Recording
  | .hit _ => tiers.getRecordings key true
  | .miss => tiers.getRecordings key false
  | .needsWrite => []

theorem Tiers.lookup_recordings (host : Host World Key Value) (key : Key) (tiers : Tiers Key Value) (world : World) :
    (tiers.lookup host key world).2 =
      (tiers.lookupRecordings key (tiers.lookup host key world).1).foldl
        (fun world recording => host.record recording world) world := by
  rw [lookup]
  cases slot : tiers.pinned.slot? key with
  | some held =>
      have pinned : tiers.isPinned key = true := by rw [isPinned_eq, slot]; rfl
      cases held with
      | none => rfl
      | some value => simp only [lookupRecordings, getRecordings, pinned]; rfl
  | none =>
      have pinned : tiers.isPinned key = false := by rw [isPinned_eq, slot]; rfl
      cases present : tiers.primary.peek? key with
      | some value =>
          dsimp only
          split
          · rfl
          · simp only [lookupRecordings, getRecordings, pinned, present]
            rfl
      | none =>
          dsimp only
          split <;> rfl

namespace Frame

/-- What is counted on a cache of a value that is looked up without a write. -/
def lookedUp (number : Nat) (frame : Frame Key Value) : List Recording :=
  match frame.fleet.find? frame.request.handle, frame.request.action with
  | some (place, cache), .get key =>
      if place = number then
        cache.tiers.lookupRecordings key (cache.tiers.lookup (.still (frame.fleet.moment cache)) key cache.tally).1
      else []
  | _, _ => []

/-- What a call has counted on a cache: the hold that it could not have; or else what it looked up and what it did. -/
def recordings (number : Nat) (frame : Frame Key Value) : List Recording :=
  match frame.fleet.refusal? frame.request with
  | some acquisition => if acquisition.number = number then [.lockTimeout] else []
  | none => frame.lookedUp number ++ (frame.deedsOn number).flatMap Deed.recordings

/-- The counts of a cache once a call has been counted. -/
def tallied (number : Nat) (frame : Frame Key Value) (tally : Tally) : Tally :=
  if frame.resets number then .zero else tally.recordAll (frame.recordings number)

end Frame

namespace Fleet

def tally? (fleet : Fleet Key Value) (number : Nat) : Option Tally := fleet.caches[number]?.map Cache.tally

variable {fleet : Fleet Key Value} {number place : Nat} {cache : Cache Key Value} {react : Reaction Key Value}
  {request : Call Key Value} {writers : List Nat} {undertaking : Undertaking Key Value}

theorem resets_iff {frame : Frame Key Value} : frame.resets number = true ↔
    ∃ cache, frame.fleet.find? frame.request.handle = some (number, cache) ∧ frame.request.action = .resetMetrics := by
  rw [Frame.resets]
  split
  next place cache located asked =>
    rw [located, asked, beq_iff_eq]
    constructor
    · rintro rfl
      exact ⟨cache, rfl, rfl⟩
    · rintro ⟨_, same, -⟩
      exact (Prod.mk.inj (Option.some.inj same)).1
  next other =>
    constructor
    · intro same
      cases same
    · rintro ⟨cache, located, asked⟩
      exact (other _ _ located asked).elim

/-- Whoever is refused is not about to set counts back. -/
theorem not_resets_of_refused {acquisition : Acquisition Key Value} (refused : fleet.refusal? request = some acquisition)
    (number : Nat) : (Frame.begin react writers request fleet).resets number = false := by
  rw [← Bool.not_eq_true, resets_iff]
  rintro ⟨cache, located, asked⟩
  have none : fleet.acquisitions request = [] := by
    have here : fleet.find? request.handle = some (number, cache) := located
    have action : request.action = .resetMetrics := asked
    rw [acquisitions, here, action]
    rfl
  rw [refusal?, none] at refused
  cases refused

theorem tallied_of_spared {frame : Frame Key Value} (spared : frame.resets number = false) (tally : Tally) :
    frame.tallied number tally = tally.recordAll (frame.recordings number) := by
  rw [Frame.tallied, spared]
  rfl

/-- A call that is not refused, looks nothing up, does nothing and sets nothing back has nothing counted. -/
theorem tallied_eq_id {frame : Frame Key Value} (granted : frame.fleet.refusal? frame.request = none)
    (spared : frame.resets number = false) (looked : frame.lookedUp number = []) (idle : frame.deedsOn number = []) :
    frame.tallied number = id := by
  funext tally
  rw [tallied_of_spared spared, Frame.recordings, granted, looked, idle]
  rfl

theorem spared_of_action {frame : Frame Key Value} (sparing : frame.request.action ≠ .resetMetrics) (number : Nat) :
    frame.resets number = false := by
  rw [← Bool.not_eq_true, resets_iff]
  rintro ⟨cache, -, asked⟩
  exact sparing asked

theorem lookedUp_of_action {frame : Frame Key Value} (asks : ∀ key, frame.request.action ≠ .get key) (number : Nat) :
    frame.lookedUp number = [] := by
  rw [Frame.lookedUp]
  split
  next place cache key located asked => exact absurd asked (asks key)
  next => rfl

theorem tally?_adjust (fleet : Fleet Key Value) (place number : Nat) {change : Cache Key Value → Cache Key Value}
    (same : ∀ cache, (change cache).tally = cache.tally) :
    (fleet.adjust place change).tally? number = fleet.tally? number :=
  map_adjust Cache.tally fleet place number same

theorem tally?_of_ne (fleet : Fleet Key Value) (change : Cache Key Value → Cache Key Value) (apart : place ≠ number) :
    (fleet.adjust place change).tally? number = fleet.tally? number := by
  rw [tally?, caches_adjust, if_neg apart]
  rfl

theorem tally?_record (fleet : Fleet Key Value) (number : Nat) (recording : Recording) :
    (fleet.adjust number (Cache.record recording)).tally? number =
      (fleet.tally? number).map fun tally => tally.record recording := by
  rw [tally?, caches_adjust, if_pos rfl, tally?, Option.map_map, Option.map_map]
  rfl

theorem tally?_recordAll (fleet : Fleet Key Value) (number : Nat) (recordings : List Recording) :
    (recordings.foldl (fun fleet recording => fleet.adjust number (Cache.record recording)) fleet).tally? number =
      (fleet.tally? number).map fun tally => tally.recordAll recordings := by
  induction recordings generalizing fleet with
  | nil => exact Option.map_id'.symm
  | cons recording rest ih =>
      rw [List.foldl_cons, ih, tally?_record, Option.map_map]
      rfl

theorem tally?_recordAll_of_ne (fleet : Fleet Key Value) (apart : place ≠ number) (recordings : List Recording) :
    (recordings.foldl (fun fleet recording => fleet.adjust place (Cache.record recording)) fleet).tally? number =
      fleet.tally? number := by
  induction recordings generalizing fleet with
  | nil => rfl
  | cons recording rest ih => exact (ih _).trans (tally?_of_ne fleet _ apart)

/-- Of a call that is refused, a timeout is counted where it is refused. -/
theorem recordings_refused {frame : Frame Key Value} {acquisition : Acquisition Key Value}
    (refused : frame.fleet.refusal? frame.request = some acquisition) (number : Nat) :
    frame.recordings number = if acquisition.number = number then [.lockTimeout] else [] := by
  rw [Frame.recordings, refused]

theorem recordings_granted {frame : Frame Key Value} (granted : frame.fleet.refusal? frame.request = none)
    (number : Nat) :
    frame.recordings number = frame.lookedUp number ++ (frame.deedsOn number).flatMap Deed.recordings := by
  rw [Frame.recordings, granted]

/-- A call that is refused counts a timeout where it is refused. -/
theorem tally?_refused {acquisition : Acquisition Key Value} (refused : fleet.refusal? request = some acquisition)
    (number : Nat) :
    (fleet.refusedBy acquisition).2.tally? number =
      (fleet.tally? number).map ((Frame.begin react writers request fleet).tallied number) := by
  have counted : ∀ tally, (Frame.begin react writers request fleet).tallied number tally =
      tally.recordAll (if acquisition.number = number then [.lockTimeout] else []) := by
    intro tally
    rw [tallied_of_spared (not_resets_of_refused refused number), recordings_refused refused number]
  rw [funext counted, refusedBy]
  dsimp only
  split
  next here =>
    rw [here, tally?_record]
    rfl
  next apart =>
    rw [tally?_of_ne fleet _ apart]
    exact Option.map_id'.symm

/-- Of a lookup that is answered at once, what it finds is counted. -/
theorem recordings_lookup (granted : fleet.refusal? request = none) (calm : fleet.undertaking? request = none)
    (located : fleet.find? request.handle = some (place, cache)) {key : Key} (asked : request.action = .get key)
    {found : Lookup Value} {after : Fleet Key Value}
    (looked : cache.tiers.lookup (host react place cache.listener) key fleet = (found, after)) (number : Nat) :
    (Frame.begin react writers request fleet).recordings number =
      if place = number then cache.tiers.lookupRecordings key found else [] := by
  have answered : (cache.tiers.lookup (.still (fleet.moment cache)) key cache.tally).1 = found := by
    rw [← lookup_host (find?_eq_some_iff.mp located).2, looked]
  rw [Frame.recordings, deedsOn_calm calm]
  simp only [Frame.begin, granted, Frame.lookedUp, located, asked, answered, List.flatMap_nil, List.append_nil]

/-- A lookup that is answered at once counts what it finds. -/
theorem tally?_lookup (granted : fleet.refusal? request = none) (calm : fleet.undertaking? request = none)
    (located : fleet.find? request.handle = some (place, cache)) {key : Key} (asked : request.action = .get key)
    {found : Lookup Value} {after : Fleet Key Value}
    (looked : cache.tiers.lookup (host react place cache.listener) key fleet = (found, after)) (number : Nat) :
    after.tally? number = (fleet.tally? number).map ((Frame.begin react writers request fleet).tallied number) := by
  have spared : (Frame.begin react writers request fleet).resets number = false := by
    refine spared_of_action ?_ number
    intro reset
    cases asked.symm.trans reset
  have counted : ∀ tally, (Frame.begin react writers request fleet).tallied number tally =
      tally.recordAll (if place = number then cache.tiers.lookupRecordings key found else []) := by
    intro tally
    rw [tallied_of_spared spared, recordings_lookup granted calm located asked looked number]
  have left := Tiers.lookup_recordings (host react place cache.listener) key cache.tiers fleet
  rw [looked] at left
  dsimp only at left
  rw [funext counted, left]
  split
  next here =>
    subst here
    exact tally?_recordAll fleet place _
  next apart =>
    exact (tally?_recordAll_of_ne fleet apart _).trans Option.map_id'.symm

/-- A call that sets the counts of a cache back leaves those of the others. -/
theorem tally?_reset (granted : fleet.refusal? request = none) (calm : fleet.undertaking? request = none)
    (located : fleet.find? request.handle = some (place, cache)) (asked : request.action = .resetMetrics) (number : Nat) :
    (fleet.adjust place fun cache => { cache with tally := .zero }).tally? number =
      (fleet.tally? number).map ((Frame.begin react writers request fleet).tallied number) := by
  by_cases here : place = number
  · subst here
    have resets : (Frame.begin react writers request fleet).resets place = true := resets_iff.mpr ⟨cache, located, asked⟩
    have zero : (Frame.begin react writers request fleet).tallied place = fun _ => .zero := by
      funext tally
      rw [Frame.tallied, resets]
      rfl
    rw [zero, tally?, caches_adjust, if_pos rfl, tally?, Option.map_map, Option.map_map]
    rfl
  · have spared : (Frame.begin react writers request fleet).resets number = false := by
      rw [← Bool.not_eq_true, resets_iff]
      rintro ⟨_, found, -⟩
      exact here (Prod.mk.inj (Option.some.inj (located.symm.trans found))).1
    have looked : (Frame.begin react writers request fleet).lookedUp number = [] := by
      refine lookedUp_of_action ?_ number
      intro key got
      cases asked.symm.trans got
    rw [tallied_eq_id granted spared looked (deedsOn_calm calm react writers number), Option.map_id]
    exact tally?_of_ne fleet _ here

/-- A call that neither writes nor searches leaves the counts that are told of it. -/
theorem tally?_aside [BEq Value] (calm : fleet.undertaking? request = none) (quiet : fleet.search? request = none)
    (react : Reaction Key Value) (writers : List Nat) (number : Nat) :
    (perform react request fleet).2.tally? number =
      (fleet.tally? number).map ((Frame.begin react writers request fleet).tallied number) := by
  cases refused : fleet.refusal? request with
  | some acquisition =>
      rw [perform_refused refused]
      exact tally?_refused refused number
  | none =>
      let frame : Frame Key Value := .begin react writers request fleet
      have nothing (spared : frame.resets number = false) (looked : frame.lookedUp number = [])
          {after : Fleet Key Value} (same : after.tally? number = fleet.tally? number) :
          after.tally? number = (fleet.tally? number).map (frame.tallied number) := by
        rw [same, tallied_eq_id refused spared looked (deedsOn_calm calm react writers number), Option.map_id]
        rfl
      have plain (asks : ∀ key, request.action ≠ .get key) (sparing : request.action ≠ .resetMetrics)
          {after : Fleet Key Value} (same : after.tally? number = fleet.tally? number) :
          after.tally? number = (fleet.tally? number).map (frame.tallied number) :=
        nothing (spared_of_action sparing number) (lookedUp_of_action asks number) same
      cases located : fleet.find? request.handle with
      | none =>
          have absent : frame.fleet.find? frame.request.handle = none := located
          refine nothing ?_ ?_ ?_
          · rw [Frame.resets, absent]
          · rw [Frame.lookedUp, absent]
          · obtain ⟨handle, action⟩ := request
            rw [Call.handle] at located
            rw [perform, located]
      | some place =>
          obtain ⟨origin, cache⟩ := place
          have reached := outcome_of_granted refused located react
          have undertaken := undertaking?_of_writes refused located
          rw [calm] at undertaken
          have looked := fun key asked found after => @tally?_lookup Key Value _ fleet origin cache react request writers
            refused calm located key asked found after
          generalize perform react request fleet = outcome at reached
          obtain ⟨handle, action⟩ := request
          cases reached with
          | told reported =>
              refine plain ?_ ?_ rfl
              · intro key asked
                obtain rfl : action = .get key := asked
                cases reported
              · intro asked
                obtain rfl : action = .resetMetrics := asked
                cases reported
          | unknownSource => exact plain (by rintro _ ⟨⟩) (by rintro ⟨⟩) rfl
          | hit found => exact looked _ rfl _ _ found number
          | miss found => exact looked _ rfl _ _ found number
          | worked asked free writes =>
              cases action with
              | setListener => cases asked
              | _ => cases (undertaken writes).trans (congrArg (Option.map _) asked)
          | listened free => cases undertaken rfl
          | searched =>
              rw [search?, refused, located] at quiet
              cases quiet
          | reclaimed => exact plain (by rintro _ ⟨⟩) (by rintro ⟨⟩) (tally?_adjust fleet origin number fun _ => rfl)
          | reset => exact tally?_reset refused calm located rfl number
          | cloned => exact plain (by rintro _ ⟨⟩) (by rintro ⟨⟩) rfl
          | advanced => exact plain (by rintro _ ⟨⟩) (by rintro ⟨⟩) rfl

/-- A value that is got by a write is counted by the writer. -/
theorem lookedUp_of_taken {frame : Frame Key Value} (taken : frame.fleet.undertaking? frame.request = some undertaking)
    (number : Nat) : frame.lookedUp number = [] := by
  obtain ⟨-, located, writes, -⟩ := undertaking?_eq_some taken
  rw [Frame.lookedUp]
  split
  next place cache key found asked =>
    obtain ⟨rfl, rfl⟩ := Prod.mk.inj (Option.some.inj (located.symm.trans found))
    rw [asked, Action.writes, Action.acquisitions] at writes
    split
    · let still : Host Tally Key Value := .still (frame.fleet.moment undertaking.cache)
      cases looked : (undertaking.cache.tiers.lookup still key undertaking.cache.tally).1 with
      | needsWrite => rfl
      | hit | miss =>
          rw [looked] at writes
          cases writes
    · rfl
  next => rfl

/-- Of a call that writes, what its deeds count is counted on its cache. -/
theorem recordings_taken (taken : fleet.undertaking? request = some undertaking) (react : Reaction Key Value)
    (writers : List Nat) (number : Nat) :
    (Frame.begin react writers request fleet).recordings number =
      if undertaking.number = number then (undertaking.deeds react fleet).flatMap Deed.recordings else [] := by
  let frame : Frame Key Value := .begin react writers request fleet
  have granted : frame.fleet.refusal? frame.request = none := (undertaking?_eq_some taken).1
  have looked : frame.lookedUp number = [] := lookedUp_of_taken taken number
  have counted := recordings_granted granted number
  rw [looked, deedsOn_taken taken] at counted
  rw [counted]
  split <;> rfl

/-- Whatever is called while a writer is at work has nothing counted on its cache but timeouts. -/
theorem recordings_busy {frame : Frame Key Value} (busy : frame.fleet.Busy number) (idle : frame.deedsOn number = []) :
    ∀ recording ∈ frame.recordings number, recording = .lockTimeout := by
  cases refused : frame.fleet.refusal? frame.request with
  | some acquisition =>
      rw [recordings_refused refused]
      split
      · exact List.forall_mem_singleton.mpr rfl
      · exact List.forall_mem_nil _
  | none =>
      have looked : frame.lookedUp number = [] := by
        rw [Frame.lookedUp]
        split
        next place cache key located asked =>
          refine if_neg ?_
          rintro rfl
          have shared : (⟨place, cache, "get", .shared⟩ : Acquisition Key Value) ∈
              frame.fleet.acquisitions frame.request := by
            rw [acquisitions, located, asked]
            exact List.mem_cons_self
          obtain ⟨holder, found, held⟩ := busy
          obtain rfl := Option.some.inj ((find?_eq_some_iff.mp located).2.symm.trans found)
          have admitted := List.find?_eq_none.mp refused _ shared
          rw [Acquisition.granted, held] at admitted
          exact admitted rfl
        next => rfl
      rw [recordings_granted refused, looked, idle]
      exact List.forall_mem_nil _

/-- Who writes does not set counts back. -/
theorem spared_of_taken {frame : Frame Key Value} (taken : frame.fleet.undertaking? frame.request = some undertaking)
    (number : Nat) : frame.resets number = false := by
  obtain ⟨-, -, -, asked⟩ := undertaking?_eq_some taken
  refine spared_of_action ?_ number
  intro reset
  rw [reset] at asked
  cases asked

/-- A search has nothing counted by itself. -/
theorem tallied_search {place : Nat} {cache : Cache Key Value} {calls : List (Call Key Value)}
    (calm : fleet.undertaking? request = none) (sought : fleet.search? request = some (place, cache, calls))
    (react : Reaction Key Value) (writers : List Nat) (number : Nat) :
    (Frame.begin react writers request fleet).tallied number = id := by
  obtain ⟨granted, -, value, during, asked, -⟩ := search?_eq_some sought
  refine tallied_eq_id granted (spared_of_action ?_ number) (lookedUp_of_action ?_ number)
    (deedsOn_calm calm react writers number)
  · intro reset
    cases asked.symm.trans reset
  · intro key got
    cases asked.symm.trans got

end Fleet

end LayeredCache
