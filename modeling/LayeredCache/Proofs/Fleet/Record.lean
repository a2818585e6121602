import LayeredCache.Proofs.Fleet.Quiet
import LayeredCache.Proofs.Tiers.Record

/-! The caches of a fleet beside plain maps, one for each cache, that only writes change. -/

set_option autoImplicit false

namespace LayeredCache

variable {World Key Value : Type} [DecidableEq Key]

/-- The key that an action hands out a value of. -/
def Action.subject : Action Key Value → Option Key
  | .put key _ | .putShared key _ | .get key | .remove key => some key
  | _ => none

namespace Tiers

variable {tiers : Tiers Key Value} {map : Key → Option Value} {key : Key} {value : Value}

/-- What an operation of a writer records. Its purge comes first and records nothing. -/
def recordedPurged (host : Host World Key Value) (operation : Operation Key Value)
    (tiers : Tiers Key Value) (world : World) (map : Key → Option Value) : Key → Option Value :=
  let purged := purgeSoft host tiers world
  recorded host operation purged.2.1 purged.2.2 map

theorem Recorded.operatePurged {World : Type} (before : Recorded tiers map)
    (host : Host World Key Value) (operation : Operation Key Value) (world : World) :
    Recorded (operatePurged host operation tiers world).2.1
      (recordedPurged host operation tiers world map) :=
  (before.step host .purgeSoft world).step host operation _

theorem Recorded.serve {World : Type} (before : Recorded tiers map) (host : Host World Key Value)
    (operation : Operation Key Value) (world : World) :
    Recorded (serve host operation tiers world).2.1
      (recordedPurged host operation tiers world map) := by
  cases operation with
  | get key =>
      simp only [Tiers.serve]
      split
      · exact before
      · exact before
      next needed =>
        rw [lookup_of_needsWrite (congrArg Prod.fst needed)] at needed
        obtain ⟨-, rfl⟩ := Prod.mk.inj needed
        exact before.operatePurged host (.get key) world
  | purgeSoft => exact before.step host .purgeSoft world
  | put _ _ | remove _ | pin _ | unpin _ | putAll _ _ | clear | setCacheSize _
  | setSoftReferenceSize _ => exact before.operatePurged host _ world

theorem operatePurged_stored (valid : tiers.Valid) (host : Host World Key Value)
    (operation : Operation Key Value) (world : World) (subject : operation.subject = some key)
    (answered : (operatePurged host operation tiers world).1 = .value (some value)) :
    tiers.Stores key value := by
  have stored := operate_stored (valid.purgeSoft host world) host operation _ subject answered
  exact purgeSoft_storesNoMore host tiers world key value stored

/-- What a writer hands out was stored for its key. -/
theorem serve_stored (valid : tiers.Valid) (host : Host World Key Value)
    (operation : Operation Key Value) (world : World) (subject : operation.subject = some key)
    (answered : (serve host operation tiers world).1 = .value (some value)) :
    tiers.Stores key value := by
  cases operation with
  | get read =>
      obtain rfl := Option.some.inj subject
      simp only [serve] at answered
      split at answered
      next found after hit =>
        obtain rfl := Option.some.inj (Answer.value.inj answered)
        exact lookup_stored host tiers world (congrArg Prod.fst hit)
      · cases answered
      next after needed =>
        rw [lookup_of_needsWrite (congrArg Prod.fst needed)] at needed
        obtain ⟨-, rfl⟩ := Prod.mk.inj needed
        exact operatePurged_stored valid host (.get read) world rfl answered
  | put written new => exact operatePurged_stored valid host (.put written new) world subject answered
  | remove removed => exact operatePurged_stored valid host (.remove removed) world subject answered
  | pin _ | unpin _ | putAll _ _ | clear | setCacheSize _ | setSoftReferenceSize _ | purgeSoft =>
      cases subject

end Tiers

namespace Fleet

variable {fleet : Fleet Key Value} {maps : Nat → Key → Option Value} {number : Nat}
  {cache : Cache Key Value}

/-- The plain maps beside the caches of a fleet after a call. -/
def recorded (fleet : Fleet Key Value) (request : Call Key Value) (maps : Nat → Key → Option Value) :
    Nat → Key → Option Value :=
  match fleet.find? request.handle, request.action.operation? fleet with
  | some (number, cache), some operation =>
      Function.update maps number
        (cache.tiers.recordedPurged (.still (fleet.moment cache)) operation cache.tally (maps number))
  | _, _ => maps

/-- Fleets without listeners that calls from outside can lead to, with the plain maps beside their caches. -/
inductive Recorded [BEq Value] : Fleet Key Value → (Nat → Key → Option Value) → Prop where
  | fresh (settings : List Settings) : Recorded (ofSettings settings) fun _ _ => none
  | step {fleet : Fleet Key Value} {maps : Nat → Key → Option Value} (before : Recorded fleet maps)
      (request : Call Key Value) (plain : request.action.plain = true) :
      Recorded (fleet.call request).2 (recorded fleet request maps)

/-- Each cache is recorded by its own map. -/
def Accompanied (fleet : Fleet Key Value) (maps : Nat → Key → Option Value) : Prop :=
  ∀ (number : Nat) (cache : Cache Key Value), fleet.caches[number]? = some cache →
    Tiers.Recorded cache.tiers (maps number)

theorem Accompanied.of_same_tiers {after : Fleet Key Value} (accompanied : Accompanied fleet maps)
    (same : ∀ number : Nat, after.caches[number]?.map Cache.tiers = fleet.caches[number]?.map Cache.tiers) :
    Accompanied after maps := by
  intro number cache found
  have tiers := same number
  rw [found] at tiers
  obtain ⟨stored, present, equal⟩ := Option.map_eq_some_iff.mp tiers.symm
  exact equal ▸ accompanied number stored present

theorem call_accompanied [BEq Value] (quiet : Quiet fleet) (accompanied : Accompanied fleet maps)
    (request : Call Key Value) (plain : request.action.plain = true) :
    Quiet (fleet.call request).2 ∧ Accompanied (fleet.call request).2 (recorded fleet request maps) := by
  obtain ⟨handle, action⟩ := request
  cases located : fleet.find? handle with
  | none =>
      obtain ⟨still, same, -⟩ := call_aside quiet plain (.inl located)
      simp only [recorded, Call.handle, located]
      exact ⟨still, accompanied.of_same_tiers same⟩
  | some place =>
      obtain ⟨number, cache⟩ := place
      cases asked : action.operation? fleet with
      | none =>
          obtain ⟨still, same, -⟩ := call_aside quiet plain (.inr asked)
          simp only [recorded, Call.handle, Call.action, located, asked]
          exact ⟨still, accompanied.of_same_tiers same⟩
      | some operation =>
          have found := (find?_eq_some_iff.mp located).2
          rw [call_operation quiet located asked]
          simp only [recorded, Call.handle, Call.action, located, asked]
          refine ⟨quiet.adjust number (fun _ => rfl) fun _ => rfl, ?_⟩
          intro other settled present
          rw [caches_adjust] at present
          split at present
          next same =>
            subst same
            rw [found] at present
            obtain rfl := Option.some.inj present
            rw [Function.update_self]
            exact (accompanied number cache found).serve _ operation _
          next differs =>
            rw [Function.update_of_ne (Ne.symm differs)]
            exact accompanied other settled present

theorem Recorded.accompanied [BEq Value] (recorded : Recorded fleet maps) :
    Quiet fleet ∧ Accompanied fleet maps := by
  induction recorded with
  | fresh settings =>
      refine ⟨ofSettings_quiet settings, ?_⟩
      intro number cache found
      rw [ofSettings, List.getElem?_toArray, List.getElem?_map] at found
      obtain ⟨chosen, -, rfl⟩ := Option.map_eq_some_iff.mp found
      exact .fresh _ _ _ _
  | step _ request plain ih => exact call_accompanied ih.1 ih.2 request plain

theorem operation?_of_subject {action : Action Key Value} {key : Key}
    (subject : action.subject = some key) :
    action.plain = true ∧
      ∃ operation, action.operation? fleet = some operation ∧ operation.subject = some key := by
  cases action with
  | put written value | putShared written value => exact ⟨rfl, _, rfl, subject⟩
  | get read => exact ⟨rfl, _, rfl, subject⟩
  | remove removed => exact ⟨rfl, _, rfl, subject⟩
  | _ => cases subject

/-- Nothing stale or foreign is ever shown or handed out: beside tiers under any host, and beside every cache of a
fleet without listeners, a plain map that only writes change holds the value of every visible entry, of every valued
pin, and of every value handed out, as it was before the operation. -/
theorem never_stale [BEq Value] :
    (∀ (tiers : Tiers Key Value) (map : Key → Option Value), Tiers.Recorded tiers map →
      tiers.Truthful map ∧
        ∀ {World : Type} (host : Host World Key Value) (operation : Operation Key Value) (world : World)
          (key : Key) (value : Value), operation.subject = some key →
          (tiers.operate host operation world).1 = .value (some value) → map key = some value) ∧
      ∀ (fleet : Fleet Key Value) (maps : Nat → Key → Option Value), Recorded fleet maps →
        (∀ (number : Nat) (cache : Cache Key Value), fleet.caches[number]? = some cache →
          cache.tiers.Truthful (maps number)) ∧
        ∀ (handle number : Nat) (cache : Cache Key Value) (action : Action Key Value) (key : Key)
          (value : Value), fleet.find? handle = some (number, cache) → action.subject = some key →
          (fleet.call (.mk handle action)).1 = .value (some value) → maps number key = some value := by
  constructor
  · intro tiers map recorded
    refine ⟨recorded.agrees.truthful, ?_⟩
    intro World host operation world key value subject answered
    exact recorded.agrees key value
      (Tiers.operate_stored recorded.reachable.valid host operation world subject answered)
  · intro fleet maps recorded
    obtain ⟨quiet, accompanied⟩ := recorded.accompanied
    refine ⟨fun number cache found => (accompanied number cache found).agrees.truthful, ?_⟩
    intro handle number cache action key value located subject answered
    have beside := accompanied number cache (find?_eq_some_iff.mp located).2
    obtain ⟨plain, operation, asked, same⟩ := @operation?_of_subject Key Value _ fleet action key subject
    rw [call_operation quiet located asked] at answered
    refine beside.agrees key value
      (Tiers.serve_stored beside.reachable.valid (.still (fleet.moment cache)) operation cache.tally same ?_)
    revert answered
    cases (Tiers.serve (.still (fleet.moment cache)) operation cache.tiers cache.tally).1 with
    | value shown => exact fun answered => congrArg Answer.value (Reply.value.inj answered)
    | flag _ | count _ | done => exact nofun

/-- A value put over another is the one recorded. -/
theorem never_stale_after_update :
    let first : Fleet Nat Nat := ofSettings [{}]
    let second := (first.call (.mk 0 (.put 1 10))).2
    recorded second (.mk 0 (.put 1 11)) (recorded first (.mk 0 (.put 1 10)) fun _ _ => none) 0 1 =
      some 11 :=
  (never_stale.2 _ _
    (.step (.step (.fresh [{}]) (.mk 0 (.put 1 10)) rfl) (.mk 0 (.put 1 11)) rfl)).2
    0 0 _ (.get 1) 1 11 rfl rfl rfl

end Fleet

end LayeredCache
