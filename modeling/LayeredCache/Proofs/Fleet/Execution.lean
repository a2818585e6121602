import LayeredCache.Proofs.Fleet.Closure
import LayeredCache.Proofs.Tiers.Course

/-! Calls carried out to their end. What a listener or a search asks for in the middle of a call is carried out like a
call from outside, however deep it lies; no bound on the depth is part of the notion. A reaction only stands for what the
calls that answer an event have been carried out to. -/

set_option autoImplicit false

namespace LayeredCache

variable {Key Value : Type} [DecidableEq Key]

/-- An operation that a call carries out on a cache that it holds exclusively. -/
structure Undertaking (Key Value : Type) [DecidableEq Key] where
  number : Nat
  cache : Cache Key Value
  operation : Operation Key Value

/-- Calls made in order, in the middle of the work of some writers, and the fleets before and after. -/
structure Run (Key Value : Type) [DecidableEq Key] where
  /-- The caches whose writers wait for the calls, the last to have begun first. -/
  writers : List Nat
  calls : List (Call Key Value)
  before : Fleet Key Value
  after : Fleet Key Value

/-- A call as it is begun, and the deeds that it then does. -/
structure Frame (Key Value : Type) [DecidableEq Key] where
  writers : List Nat
  request : Call Key Value
  fleet : Fleet Key Value
  deeds : List (Deed Key Value)

/-- The fleet once an event is written down, if the listener has that done. -/
def Listener.told (listener : Listener Key Value) (number : Nat) (event : Event Key Value)
    (fleet : Fleet Key Value) : Fleet Key Value :=
  if listener.journals event then fleet.note (.event number event) else fleet

/-- The calls that answer an event. -/
def Listener.run (listener : Listener Key Value) (number : Nat) (writers : List Nat)
    (happening : Happening (Fleet Key Value) Key Value) : Run Key Value where
  writers := number :: writers
  calls := listener.reacts happening.before.heard happening.event
  before := listener.told number happening.event happening.before
  after := happening.after

namespace Undertaking

variable (undertaking : Undertaking Key Value) (react : Fleet.Reaction Key Value) (fleet : Fleet Key Value)

/-- What the cache sees of the fleet meanwhile. -/
def host : Host (Fleet Key Value) Key Value :=
  Fleet.host react undertaking.number undertaking.cache.listener

/-- What is done to the tiers and to the fleet before the cache is let go. -/
def worked : Answer Value × Tiers Key Value × Fleet Key Value :=
  Tiers.operateHeld (undertaking.host react) undertaking.operation undertaking.cache.tiers
    (fleet.hold undertaking.number .exclusive)

/-- What is left behind once the cache is let go. -/
def after : Fleet Key Value :=
  (Fleet.work react undertaking.number undertaking.cache undertaking.operation fleet).2

def happenings : List (Happening (Fleet Key Value) Key Value) :=
  Tiers.happenings (undertaking.host react) undertaking.operation undertaking.cache.tiers
    (fleet.hold undertaking.number .exclusive)

def deeds : List (Deed Key Value) :=
  Tiers.deedsHeld (undertaking.host react) undertaking.operation undertaking.cache.tiers
    (fleet.hold undertaking.number .exclusive)

/-- The calls that the listener of the cache makes meanwhile. -/
def runs (writers : List Nat) : List (Run Key Value) :=
  match undertaking.cache.listener with
  | none => []
  | some listener => (undertaking.happenings react fleet).map (listener.run undertaking.number writers)

end Undertaking

namespace Fleet

/-- What a call carries out on a cache that it holds exclusively, if it is one that does and is not refused. -/
def undertaking? (fleet : Fleet Key Value) (request : Call Key Value) : Option (Undertaking Key Value) :=
  match fleet.refusal? request, fleet.find? request.handle with
  | none, some (number, cache) =>
      if request.action.writes fleet number cache then
        (request.action.written? fleet).map fun operation => ⟨number, cache, operation⟩
      else none
  | _, _ => none

/-- The cache that a call searches, if it is one that does and is not refused, and the calls it makes meanwhile: none
where there is nothing to compare. -/
def search? (fleet : Fleet Key Value) (request : Call Key Value) :
    Option (Nat × Cache Key Value × List (Call Key Value)) :=
  match fleet.refusal? request, fleet.find? request.handle, request.action with
  | none, some (number, cache), .containsValue _ calls =>
      some (number, cache, if (cache.tiers.entries (fleet.moment cache)).isEmpty then [] else calls)
  | _, _, _ => none

variable {fleet : Fleet Key Value} {request : Call Key Value} {undertaking : Undertaking Key Value}
  {number : Nat} {cache : Cache Key Value} {calls : List (Call Key Value)} {react : Reaction Key Value}

theorem undertaking?_eq_some (taken : fleet.undertaking? request = some undertaking) :
    fleet.refusal? request = none ∧ fleet.find? request.handle = some (undertaking.number, undertaking.cache) ∧
      request.action.writes fleet undertaking.number undertaking.cache = true ∧
      request.action.written? fleet = some undertaking.operation := by
  rw [undertaking?] at taken
  split at taken
  next number cache granted located =>
    split at taken
    next writes =>
      obtain ⟨operation, asked, rfl⟩ := Option.map_eq_some_iff.mp taken
      exact ⟨granted, located, writes, asked⟩
    next => cases taken
  next => cases taken

theorem undertaking?_of_writes (granted : fleet.refusal? request = none)
    (located : fleet.find? request.handle = some (number, cache))
    (writes : request.action.writes fleet number cache = true) :
    fleet.undertaking? request = (request.action.written? fleet).map fun operation => ⟨number, cache, operation⟩ := by
  rw [undertaking?, granted, located]
  exact if_pos writes

theorem search?_eq_some (sought : fleet.search? request = some (number, cache, calls)) :
    fleet.refusal? request = none ∧ fleet.find? request.handle = some (number, cache) ∧
      ∃ value during, request.action = .containsValue value during ∧
        calls = if (cache.tiers.entries (fleet.moment cache)).isEmpty then [] else during := by
  rw [search?] at sought
  split at sought
  next found located value during granted resolved asked =>
    cases sought
    exact ⟨granted, resolved, value, during, asked, rfl⟩
  next => cases sought

/-- What a call comes to that neither writes nor searches. -/
inductive Aside (fleet : Fleet Key Value) (request : Call Key Value) : Reply Key Value × Fleet Key Value → Prop where
  | refused {acquisition : Acquisition Key Value} (refused : fleet.refusal? request = some acquisition) :
      Aside fleet request (fleet.refusedBy acquisition)
  | idle (reply : Reply Key Value) : Aside fleet request (reply, fleet)
  | looked {number : Nat} {cache : Cache Key Value} (located : fleet.find? request.handle = some (number, cache))
      (shared : cache.hold.admits .shared = true) (value : Option Value) (recording : Metrics.Recording) :
      Aside fleet request
        (.value value, (fleet.adjust number (Cache.record .getCall)).adjust number (Cache.record recording))
  | reclaimed {number : Nat} {cache : Cache Key Value} (located : fleet.find? request.handle = some (number, cache))
      (asked : request.action = .reclaim) :
      Aside fleet request (.done, fleet.adjust number fun cache => { cache with epoch := cache.epoch + 1 })
  | reset {number : Nat} {cache : Cache Key Value} (located : fleet.find? request.handle = some (number, cache))
      (asked : request.action = .resetMetrics) :
      Aside fleet request (.done, fleet.adjust number fun cache => { cache with tally := .zero })
  | cloned (number : Nat) :
      Aside fleet request (.number fleet.handles.length, { fleet with handles := fleet.handles ++ [number] })
  | advanced {number : Nat} {cache : Cache Key Value} (located : fleet.find? request.handle = some (number, cache))
      {nanoseconds : Nat} (asked : request.action = .advance nanoseconds) :
      Aside fleet request (.done, { fleet with clock := fleet.clock + nanoseconds })

theorem looked_aside (located : fleet.find? request.handle = some (number, cache))
    (shared : cache.hold.admits .shared = true) {key : Key} {found : Lookup Value} {after : Fleet Key Value}
    (looked : cache.tiers.lookup (host react number cache.listener) key fleet = (found, after)) (value : Option Value) :
    Aside fleet request (.value value, after) := by
  have counted := Tiers.lookup_snd (host react number cache.listener) key cache.tiers fleet
  rw [looked] at counted
  rcases counted with rfl | ⟨recording, rfl⟩
  · exact .idle _
  · exact .looked located shared value recording

variable [BEq Value]

theorem outcome_of_granted (granted : fleet.refusal? request = none)
    (located : fleet.find? request.handle = some (number, cache)) (react : Reaction Key Value) :
    Outcome react fleet number cache request.action (perform react request fleet) := by
  obtain ⟨handle, action⟩ := request
  exact perform_outcome located (granted_of_not_refused located granted)

theorem perform_undertaking (taken : fleet.undertaking? request = some undertaking) (react : Reaction Key Value) :
    undertaking.cache.hold = .free ∧
      perform react request fleet =
        (request.action.render (undertaking.worked react fleet).1,
          (undertaking.after react fleet).adjust undertaking.number request.action.install) := by
  obtain ⟨granted, located, writes, asked⟩ := undertaking?_eq_some taken
  have found := (find?_eq_some_iff.mp located).2
  have reached := outcome_of_granted granted located react
  obtain ⟨free, operation, chosen, replied, left⟩ := reached.worked_of_writes found writes
  obtain rfl := Option.some.inj (asked.symm.trans chosen)
  exact ⟨free, Prod.ext replied left⟩

theorem perform_search (sought : fleet.search? request = some (number, cache, calls)) (react : Reaction Key Value) :
    cache.hold.admits .shared = true ∧
      ∃ found, perform react request fleet = (.flag found, search (performEach react calls) number cache fleet) := by
  obtain ⟨granted, located, value, during, asked, rfl⟩ := search?_eq_some sought
  obtain ⟨handle, action⟩ := request
  obtain rfl : action = .containsValue value during := asked
  have shared : cache.hold.admits .shared = true := granted_of_not_refused located granted _ List.mem_cons_self
  obtain ⟨flag, searched⟩ :=
    @reply_searchValue Key Value _ fleet number cache react _ (find?_eq_some_iff.mp located).2 shared value during
  have nothing : (performEach react [] : Fleet Key Value → Fleet Key Value) = id := by
    funext fleet
    rw [performEach, id]
  refine ⟨shared, flag, ?_⟩
  rw [Call.handle] at located
  rw [perform, located]
  dsimp only
  rw [searched]
  split
  · rw [nothing]
  · rfl

theorem perform_aside (calm : fleet.undertaking? request = none) (quiet : fleet.search? request = none)
    (react : Reaction Key Value) : Aside fleet request (perform react request fleet) := by
  cases refused : fleet.refusal? request with
  | some acquisition =>
      rw [perform_refused refused]
      exact .refused refused
  | none =>
      cases located : fleet.find? request.handle with
      | none =>
          obtain ⟨handle, action⟩ := request
          rw [Call.handle] at located
          rw [perform, located]
          exact .idle _
      | some place =>
          obtain ⟨number, cache⟩ := place
          have granted := granted_of_not_refused located refused
          have reached := outcome_of_granted refused located react
          have undertaken := undertaking?_of_writes refused located
          rw [calm] at undertaken
          generalize perform react request fleet = outcome at reached
          obtain ⟨handle, action⟩ := request
          cases reached with
          | told | unknownSource => exact .idle _
          | hit looked => exact looked_aside located (granted _ List.mem_cons_self) looked _
          | miss looked => exact looked_aside located (granted _ List.mem_cons_self) looked _
          | worked asked free writes =>
              cases action with
              | setListener => cases asked
              | _ => cases (undertaken writes).trans (congrArg (Option.map _) asked)
          | listened free => cases undertaken rfl
          | searched =>
              rw [search?, refused, located] at quiet
              cases quiet
          | reclaimed => exact .reclaimed located rfl
          | reset => exact .reset located rfl
          | cloned => exact .cloned number
          | advanced => exact .advanced located rfl

/-- The calls that others make before a call ends, in order. -/
def nested (react : Reaction Key Value) (writers : List Nat) (request : Call Key Value) (fleet : Fleet Key Value) :
    List (Run Key Value) :=
  match fleet.undertaking? request with
  | some undertaking => undertaking.runs react fleet writers
  | none =>
      match fleet.search? request with
      | some (number, _, calls) =>
          let held := fleet.hold number .shared
          [⟨writers, calls, held, performEach react calls held⟩]
      | none => []

end Fleet

namespace Frame

/-- A call as it is begun with a reaction to come. -/
def begin (react : Fleet.Reaction Key Value) (writers : List Nat) (request : Call Key Value)
    (fleet : Fleet Key Value) : Frame Key Value where
  writers := writers
  request := request
  fleet := fleet
  deeds := (fleet.undertaking? request).elim [] fun undertaking => undertaking.deeds react fleet

/-- The caches with a writer at work once the call is begun, the last to have begun first. -/
def active (frame : Frame Key Value) : List Nat :=
  ((frame.fleet.undertaking? frame.request).map Undertaking.number).toList ++ frame.writers

/-- The deeds done to the tiers of a cache. -/
def deedsOn (number : Nat) (frame : Frame Key Value) : List (Deed Key Value) :=
  if (frame.fleet.undertaking? frame.request).map Undertaking.number = some number then frame.deeds else []

end Frame

variable [BEq Value]

/-- Runs are carried out to their end, one after the other, with all that others ask for in the middle. Every call is
listed as it is begun. -/
inductive CarriedOut : List (Run Key Value) → List (Frame Key Value) → Prop where
  | nothing : CarriedOut [] []
  | finished {writers : List Nat} {fleet : Fleet Key Value} {rest : List (Run Key Value)}
      {trace : List (Frame Key Value)} (others : CarriedOut rest trace) :
      CarriedOut (⟨writers, [], fleet, fleet⟩ :: rest) trace
  | called {writers : List Nat} {request : Call Key Value} {calls : List (Call Key Value)}
      {fleet after : Fleet Key Value} {rest : List (Run Key Value)} {inner trace : List (Frame Key Value)}
      (react : Fleet.Reaction Key Value) (within : CarriedOut (Fleet.nested react writers request fleet) inner)
      (further : CarriedOut (⟨writers, calls, Fleet.answer react request fleet, after⟩ :: rest) trace) :
      CarriedOut (⟨writers, request :: calls, fleet, after⟩ :: rest)
        (Frame.begin react writers request fleet :: inner ++ trace)

namespace CarriedOut

theorem append {first second : List (Run Key Value)} {trace more : List (Frame Key Value)}
    (begun : CarriedOut first trace) (rest : CarriedOut second more) : CarriedOut (first ++ second) (trace ++ more) := by
  induction begun with
  | nothing => exact rest
  | finished _ ih => exact .finished ih
  | called react within _ _ ih =>
      rw [List.append_assoc]
      exact .called react within ih

end CarriedOut

end LayeredCache
