import LayeredCache.Proofs.Fleet.Outcome

/-! What calls leave related. A relation between fleets that holds across each thing a call can do, with the calls of
listeners and of searches in between, holds from before any calls to after them. -/

set_option autoImplicit false

namespace LayeredCache

variable {World Key Value : Type} [DecidableEq Key]

/-- A lookup counts a call and its outcome, or leaves the world alone. -/
theorem Tiers.lookup_snd (host : Host World Key Value) (key : Key) (tiers : Tiers Key Value) (world : World) :
    (tiers.lookup host key world).2 = world ∨
      ∃ recording, (tiers.lookup host key world).2 = host.record recording (host.record .getCall world) := by
  simp only [lookup]
  split
  · exact .inr ⟨_, rfl⟩
  · exact .inr ⟨_, rfl⟩
  · split
    · split
      · exact .inl rfl
      · exact .inr ⟨_, rfl⟩
    · split
      · exact .inl rfl
      · exact .inr ⟨_, rfl⟩

namespace Fleet

/-- A change that leaves a cache its tiers, its hold and its epoch. -/
structure Beside (change : Cache Key Value → Cache Key Value) : Prop where
  tiers : ∀ cache, (change cache).tiers = cache.tiers
  hold : ∀ cache, (change cache).hold = cache.hold
  epoch : ∀ cache, (change cache).epoch = cache.epoch

/-- A fleet one of whose caches was reclaimed, as the journal tells. -/
def reclaimed (fleet : Fleet Key Value) (handle number : Nat) : Fleet Key Value :=
  (fleet.adjust number fun cache => { cache with epoch := cache.epoch + 1 }).note
    (.answered (.mk handle .reclaim) .done)

/-- The relations that calls cannot leave. While a cache is held by a writer, a weaker relation may be all there is;
what was answered is noted together with what was done. -/
structure Closed [BEq Value] (related : Fleet Key Value → Fleet Key Value → Prop)
    (working : Nat → Fleet Key Value → Fleet Key Value → Prop) : Prop where
  refl : ∀ fleet, related fleet fleet
  trans : ∀ {first second third}, related first second → related second third → related first third
  working_of_related : ∀ {number first second}, related first second → working number first second
  working_trans : ∀ {number first second third},
    working number first second → working number second third → working number first third
  told : ∀ number event fleet, working number fleet (fleet.note (.event number event))
  answered : ∀ call reply fleet, related fleet (fleet.note (.answered call reply))
  beside : ∀ fleet number {change}, Beside change → related fleet (fleet.adjust number change)
  cloned : ∀ (fleet : Fleet Key Value) number, related fleet { fleet with handles := fleet.handles ++ [number] }
  advanced : ∀ (fleet : Fleet Key Value) nanoseconds,
    related fleet { fleet with clock := fleet.clock + nanoseconds }
  reclaimed : ∀ {fleet : Fleet Key Value} {handle number cache},
    fleet.find? handle = some (number, cache) →
    related fleet (fleet.reclaimed handle number)
  searched : ∀ {fleet after : Fleet Key Value} {number : Nat} {cache}, fleet.caches[number]? = some cache →
    cache.hold.admits .shared = true → related (fleet.hold number .shared) after →
    related fleet (after.adjust number fun other => { other with hold := cache.hold })
  worked : ∀ {fleet : Fleet Key Value} {react handle number cache action operation},
    fleet.find? handle = some (number, cache) → cache.hold = .free →
    action.operation? fleet = some operation → (host react number cache.listener).Moves (working number) →
    related fleet ((work react number cache operation fleet).2.note
      (.answered (.mk handle action) (work react number cache operation fleet).1.reply))
  purged : ∀ {fleet : Fleet Key Value} {react} {number : Nat} {cache}, fleet.caches[number]? = some cache →
    cache.hold = .free → (host react number cache.listener).Moves (working number) →
    related fleet (work react number cache .purgeSoft fleet).2

variable {related : Fleet Key Value → Fleet Key Value → Prop}
  {working : Nat → Fleet Key Value → Fleet Key Value → Prop} {react : Reaction Key Value}
  {fleet : Fleet Key Value} {number : Nat} {cache : Cache Key Value} [BEq Value]

/-- The fleet after a call whose reply is noted. -/
def answer (react : Reaction Key Value) (call : Call Key Value) (fleet : Fleet Key Value) : Fleet Key Value :=
  (perform react call fleet).2.note (.answered call (perform react call fleet).1)

omit [BEq Value] in
theorem beside_record (recording : Metrics.Recording) :
    Beside (Cache.record recording : Cache Key Value → Cache Key Value) :=
  ⟨fun _ => rfl, fun _ => rfl, fun _ => rfl⟩

omit [BEq Value] in
theorem beside_install (action : Action Key Value) : Beside action.install := by
  cases action <;> exact ⟨fun _ => rfl, fun _ => rfl, fun _ => rfl⟩

theorem host_moves (closed : Closed related working) (reacts : ∀ calls fleet, related fleet (react calls fleet))
    (number : Nat) (listener : Option (Listener Key Value)) :
    (host react number listener).Moves (working number) where
  record recording fleet := closed.working_of_related (closed.beside fleet number (beside_record recording))
  notify event fleet := by
    cases listener with
    | none => exact closed.working_of_related (closed.refl fleet)
    | some listener =>
        simp only [host]
        split
        · exact closed.working_trans (closed.told number event fleet)
            (closed.working_of_related (reacts _ _))
        · exact closed.working_of_related (reacts _ _)

theorem lookup_related (closed : Closed related working) (react : Reaction Key Value) (number : Nat)
    (listener : Option (Listener Key Value)) (key : Key) (tiers : Tiers Key Value) (fleet : Fleet Key Value) :
    related fleet (tiers.lookup (host react number listener) key fleet).2 := by
  rcases Tiers.lookup_snd (host react number listener) key tiers fleet with same | ⟨recording, counted⟩
  · rw [same]
    exact closed.refl fleet
  · rw [counted]
    exact closed.trans (closed.beside fleet number (beside_record .getCall))
      (closed.beside _ number (beside_record recording))

/-- What a call that is not refused leaves behind, if the calls made during its search stay within the relation. -/
theorem outcome_related (closed : Closed related working)
    (reacts : ∀ calls fleet, related fleet (react calls fleet)) {handle : Nat} {action : Action Key Value}
    (located : fleet.find? handle = some (number, cache))
    (during : ∀ value calls, action = .containsValue value calls →
      ∀ fleet, related fleet (performEach react calls fleet))
    {outcome : Reply Key Value × Fleet Key Value}
    (reached : Outcome react fleet number cache action outcome) :
    related fleet (outcome.2.note (.answered (.mk handle action) outcome.1)) := by
  have found := (find?_eq_some_iff.mp located).2
  have moves := host_moves closed reacts number cache.listener
  cases reached with
  | told | unknownSource => exact closed.answered _ _ fleet
  | @hit key value after looked =>
      have counted := lookup_related closed react number cache.listener key cache.tiers fleet
      rw [looked] at counted
      exact closed.trans counted (closed.answered _ _ _)
  | @miss key after looked =>
      have counted := lookup_related closed react number cache.listener key cache.tiers fleet
      rw [looked] at counted
      exact closed.trans counted (closed.answered _ _ _)
  | worked asked free => exact closed.worked located free asked moves
  | listened free =>
      refine closed.trans (closed.purged found free moves) (closed.trans ?_ (closed.answered _ _ _))
      exact closed.beside _ number ⟨fun _ => rfl, fun _ => rfl, fun _ => rfl⟩
  | searched shared =>
      refine closed.trans (closed.searched found shared ?_) (closed.answered _ _ _)
      split
      · exact closed.refl _
      · exact during _ _ rfl _
  | reclaimed => exact closed.reclaimed located
  | reset =>
      refine closed.trans ?_ (closed.answered _ _ _)
      exact closed.beside fleet number ⟨fun _ => rfl, fun _ => rfl, fun _ => rfl⟩
  | cloned => exact closed.trans (closed.cloned fleet number) (closed.answered _ _ _)
  | advanced => exact closed.trans (closed.advanced fleet _) (closed.answered _ _ _)

theorem answer_related_of_during (closed : Closed related working)
    (reacts : ∀ calls fleet, related fleet (react calls fleet)) (handle : Nat) (action : Action Key Value)
    (during : ∀ value calls, action = .containsValue value calls →
      ∀ fleet, related fleet (performEach react calls fleet)) (fleet : Fleet Key Value) :
    related fleet (answer react (.mk handle action) fleet) := by
  rw [answer]
  cases refused : fleet.refusal? (.mk handle action) with
  | some acquisition =>
      rw [perform_refused refused]
      exact closed.trans (closed.beside fleet _ (beside_record .lockTimeout)) (closed.answered _ _ _)
  | none =>
      cases located : fleet.find? handle with
      | none =>
          rw [perform, located]
          exact closed.answered _ _ fleet
      | some place =>
          obtain ⟨number, cache⟩ := place
          refine outcome_related closed reacts located during (perform_outcome located ?_)
          exact granted_of_not_refused located refused

mutual

theorem answer_related (closed : Closed related working)
    (reacts : ∀ calls fleet, related fleet (react calls fleet)) :
    (call : Call Key Value) → ∀ fleet, related fleet (answer react call fleet)
  | .mk handle action => answer_related_of_during closed reacts handle action fun _ calls searches =>
      have : sizeOf calls < sizeOf (Call.mk handle action) := by
        rw [searches, Call.mk.sizeOf_spec, Action.containsValue.sizeOf_spec]
        omega
      performEach_related closed reacts calls
termination_by call => sizeOf call

theorem performEach_related (closed : Closed related working)
    (reacts : ∀ calls fleet, related fleet (react calls fleet)) :
    (calls : List (Call Key Value)) → ∀ fleet, related fleet (performEach react calls fleet)
  | [], fleet => by
      rw [performEach]
      exact closed.refl fleet
  | call :: rest, fleet => by
      rw [performEach]
      exact closed.trans (answer_related closed reacts call fleet) (performEach_related closed reacts rest _)
termination_by calls => sizeOf calls

end

theorem reactTo_related (closed : Closed related working) (depth : Nat) :
    ∀ (calls : List (Call Key Value)) fleet, related fleet (reactTo depth calls fleet) := by
  induction depth with
  | zero => exact fun _ fleet => closed.refl fleet
  | succ depth ih => exact fun calls fleet => performEach_related closed ih calls fleet

/-- The fleet after calls from outside, in order, that the journal keeps as it keeps the calls of listeners. -/
def converse (fleet : Fleet Key Value) (requests : List (Call Key Value)) : Fleet Key Value :=
  requests.foldl (fun fleet request => answer (reactTo fleet.caches.size) request fleet) fleet

theorem converse_related (closed : Closed related working) (fleet : Fleet Key Value)
    (requests : List (Call Key Value)) : related fleet (fleet.converse requests) := by
  induction requests generalizing fleet with
  | nil => exact closed.refl fleet
  | cons request rest ih =>
      have first := answer_related closed (reactTo_related closed fleet.caches.size) request fleet
      exact closed.trans first (ih _)

end Fleet

end LayeredCache
