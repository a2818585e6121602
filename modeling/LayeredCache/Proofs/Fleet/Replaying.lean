import LayeredCache.Proofs.Fleet.Discretion
import LayeredCache.Proofs.Fleet.Passing
import LayeredCache.Proofs.Tiers.Replaying

/-! Calls that copy a cache onto itself, through one handle or through two. The cache is listed before it is held and is
purged before it is written to, of which neither changes what there is to copy. -/

set_option autoImplicit false

namespace LayeredCache.Fleet

variable {Key Value : Type} [DecidableEq Key] {fleet : Fleet Key Value} {handle source number : Nat}
  {cache : Cache Key Value} {replaceExisting : Bool} {trace : List (Frame Key Value)}

theorem undertaking?_ownCopy (located : fleet.find? handle = some (number, cache))
    (same : fleet.find? source = some (number, cache)) (free : cache.hold = .free) (replaceExisting : Bool) :
    fleet.undertaking? (.mk handle (.putAll source replaceExisting)) =
      some ⟨number, cache, .putAll (cache.tiers.entries (fleet.moment cache)) replaceExisting⟩ := by
  have taken : fleet.acquisitions (.mk handle (.putAll source replaceExisting)) =
      [⟨number, cache, "put_all", .shared⟩, ⟨number, cache, "put_all", .exclusive⟩] := by
    rw [acquisitions, Call.handle, located]
    simp only [Call.action, Action.acquisitions, same]
  have granted : fleet.refusal? (.mk handle (.putAll source replaceExisting)) = none := by
    rw [refusal?, taken]
    simp [Acquisition.granted, free, Hold.admits]
  rw [undertaking?_of_writes granted located]
  · simp only [Call.action, Action.written?, Action.operation?, same, Option.map_some]
  · simp only [Call.action, Action.writes, Action.acquisitions, same]
    rfl

variable [BEq Value]

/-- Between calls nobody holds a cache. -/
theorem free_converse {settings : List Settings} {requests : List (Call Key Value)}
    (reached : (ofSettings settings).converse requests = fleet) (found : fleet.caches[number]? = some cache) :
    cache.hold = .free := by
  have kept := converse_related holds_closed (ofSettings settings) requests
  rw [reached] at kept
  have present := getElem?_holds fleet number
  rw [kept, getElem?_holds, found] at present
  obtain ⟨fresh, built, same⟩ := Option.map_eq_some_iff.mp present
  obtain ⟨chosen, -, rfl⟩ := cache_ofSettings built
  exact same.symm

/-- A copy of a cache onto itself, as long as its listener neither reclaims it nor lets time pass. -/
theorem call_ownCopy (located : fleet.find? handle = some (number, cache))
    (same : fleet.find? source = some (number, cache)) (free : cache.hold = .free) (valid : cache.tiers.Valid)
    (carried : CarriedOut [⟨[], [.mk handle (.putAll source replaceExisting)], fleet,
      fleet.converse [.mk handle (.putAll source replaceExisting)]⟩] trace)
    (discreet : ∀ frame ∈ trace, number ∈ frame.writers → frame.discreet number = true) :
    (fleet.call (.mk handle (.putAll source replaceExisting))).1 = .done ∧
      ∃ left, (fleet.call (.mk handle (.putAll source replaceExisting))).2.caches[number]? = some left ∧
        Tiers.CopiedOver (fleet.moment cache) cache.tiers replaceExisting left.tiers := by
  have taken := undertaking?_ownCopy located same free replaceExisting
  obtain ⟨react, inner, answered, within, part⟩ := carriedOut_single carried
  rw [nested, taken] at within
  have tactful : Tactful number False inner := fun frame listed waits =>
    ⟨discreet frame (part listed) waits, False.elim⟩
  have performed : perform react (.mk handle (.putAll source replaceExisting)) fleet = fleet.call _ :=
    perform_of_answer answered
  obtain ⟨replied, left, found, tiers, -, -⟩ := perform_still taken within tactful
  rw [performed] at replied found
  refine ⟨replied, left, found, ?_⟩
  rw [tiers]
  exact Tiers.operateHeld_copiesOver valid (fleet.moment cache) replaceExisting cache.tally

/-- Copying a cache onto itself, through whichever of its handles, changes neither what it shows nor its pins, as long as
its listener neither reclaims it nor lets time pass. The writer, whatever its host, has no more to tell than demotions, and
every live entry of the soft tier has come to the primary tier. Where no value is to be replaced, nothing moves. -/
theorem own_copies_change_nothing {settings : List Settings} {requests : List (Call Key Value)}
    (reached : (ofSettings settings).converse requests = fleet) (located : fleet.find? handle = some (number, cache)) :
    (∀ {World : Type} {host : Host World Key Value} {holds : World → Prop} {log : World → List (Event Key Value)}
        {moment : Moment} {world : World}, host.Logs holds log → holds world →
          (∀ {world}, holds world → host.moment world = moment) →
            let copied := cache.tiers.putAll host true (cache.tiers.entries moment) world
            Tiers.Replays log moment (cache.tiers, world) copied ∧
              copied.1.primary.toList = cache.tiers.requeued moment ∧
                cache.tiers.putAll host false (cache.tiers.entries moment) world = (cache.tiers, world)) ∧
      ∀ source replaceExisting trace, fleet.find? source = some (number, cache) →
        let request := .mk handle (.putAll source replaceExisting)
        CarriedOut [⟨[], [request], fleet, fleet.converse [request]⟩] trace →
          (∀ frame ∈ trace, number ∈ frame.writers → frame.discreet number = true) →
            (fleet.call request).1 = .done ∧ ∃ left, (fleet.call request).2.caches[number]? = some left ∧
              Tiers.CopiedOver (fleet.moment cache) cache.tiers replaceExisting left.tiers := by
  have found := (find?_eq_some_iff.mp located).2
  have valid := (reachable_converse reached found).valid
  refine ⟨fun logs held stands => Tiers.copying_own_entries valid logs held stands, ?_⟩
  intro source replaceExisting trace same request carried discreet
  exact call_ownCopy located same (free_converse reached found) valid carried discreet

/-- A cache with full tiers is copied onto itself through its clone, while its listener tries to write to it: the value of
the soft tier and that of the primary tier change places. -/
theorem full_cache_is_copied_through_its_clone :
    let listener : Listener Nat Nat := .mk (fun _ => true) fun _ _ => [.mk 0 (.put 1 11)]
    let settings : Settings := { lru := true, cacheSize := 1, softReferenceSize := 1 }
    let fleet : Fleet Nat Nat := (ofSettings [settings]).converse
      [.mk 0 (.put 1 10), .mk 0 (.put 2 20), .mk 0 (.pin 5), .mk 0 .clone, .mk 0 (.setListener (some listener))]
    let request : Call Nat Nat := .mk 0 (.putAll 1 true)
    ∃ cache left, fleet.caches[0]? = some cache ∧ (fleet.call request).2.caches[0]? = some left ∧
      cache.tiers.primary.toList = [(2, 20)] ∧ left.tiers.primary.toList = [(1, 10)] ∧
        Tiers.CopiedOver (fleet.moment cache) cache.tiers true left.tiers ∧
          Tiers.Replays Ledger.events ⟨0, 0⟩ (cache.tiers, .start ⟨0, 0⟩)
            (cache.tiers.putAll .ledger true (cache.tiers.entries ⟨0, 0⟩) (.start ⟨0, 0⟩)) := by
  intro listener settings fleet request
  let trace := .begin (reactTo fleet.caches.size) [] request fleet :: askedFor 0 [] request fleet
  have located : (fleet.find? 0).map Prod.fst = some 0 := by decide +kernel
  have cloned : fleet.handles[1]? = some 0 := by decide +kernel
  have size : fleet.caches.size = 0 + 1 := by decide +kernel
  have quiet : (fleet.search? request).isNone = true := by decide +kernel
  have each : (askedFor 0 [] request fleet).all (alone (reactTo 0)) = true := by decide +kernel
  have discreet : trace.all (Frame.discreet 0) = true := by decide +kernel
  have before : fleet.caches[0]?.map (fun cache => cache.tiers.primary.toList) = some [(2, 20)] := by decide +kernel
  have after : (fleet.call request).2.caches[0]?.map (fun cache => cache.tiers.primary.toList) = some [(1, 10)] := by
    decide +kernel
  have carried : CarriedOut [⟨[], [request], fleet, fleet.converse [request]⟩] trace :=
    converse_askedFor size (Option.isNone_iff_eq_none.mp quiet) each
  have reached : ∃ requests, (ofSettings [settings]).converse requests = fleet := ⟨_, rfl⟩
  clear_value trace fleet
  obtain ⟨requests, reached⟩ := reached
  obtain ⟨⟨number, cache⟩, found, here⟩ := Option.map_eq_some_iff.mp located
  obtain rfl : number = 0 := here
  have stored := (find?_eq_some_iff.mp found).2
  have same : fleet.find? 1 = some (0, cache) := find?_eq_some_iff.mpr ⟨cloned, stored⟩
  obtain ⟨writers, calls⟩ := own_copies_change_nothing reached found
  have replays := (writers (Ledger.logs ⟨0, 0⟩) (rfl : (Ledger.start ⟨0, 0⟩ : Ledger Nat Nat).moment = ⟨0, 0⟩)
    fun still => still).1
  obtain ⟨-, left, reaches, copied⟩ := calls 1 true trace same carried
    fun frame listed _ => List.all_eq_true.mp discreet frame listed
  rw [stored] at before
  rw [reaches] at after
  exact ⟨cache, left, stored, reaches, Option.some.inj before, Option.some.inj after, copied, replays⟩

end LayeredCache.Fleet
