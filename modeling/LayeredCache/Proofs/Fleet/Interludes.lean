import LayeredCache.Proofs.Fleet.Conservation
import LayeredCache.Proofs.Tiers.Lookups

/-! Gets that let go of their cache. Between the lookup of a get as a reader and its repetition as a writer anything may
happen, to the cache and to whatever else there is. What the reader resolves stands as if the get had been made at once;
otherwise the reader leaves no trace, and the get is one that is made when the writer comes. -/

set_option autoImplicit false

namespace LayeredCache.Fleet

variable {Key Value : Type} [DecidableEq Key] {react : Reaction Key Value} {number : Nat} {cache : Cache Key Value}
  {key : Key} {meanwhile : Fleet Key Value → Cache Key Value × Fleet Key Value} {fleet : Fleet Key Value}
  {answer : Option Value}

/-- A get during which something happens once the reader has let go: it gives the cache that the writer finds, and the
fleet around it. -/
def getAcross (react : Reaction Key Value) (number : Nat) (cache : Cache Key Value) (key : Key)
    (meanwhile : Fleet Key Value → Cache Key Value × Fleet Key Value) (fleet : Fleet Key Value) :
    Except LockTimeout (Option Value) × Fleet Key Value :=
  if cache.hold.admits .shared then
    match cache.tiers.lookup (host react number cache.listener) key fleet with
    | (.hit value, fleet) => (.ok (some value), fleet)
    | (.miss, fleet) => (.ok none, fleet)
    | (.needsWrite, fleet) =>
        let found := meanwhile fleet
        write react number found.1 "get" (fun host tiers => tiers.get host key) found.2
  else refuse number cache "get" .shared fleet

theorem getAcross_nothing (react : Reaction Key Value) (number : Nat) (cache : Cache Key Value) (key : Key) :
    getAcross react number cache key (fun fleet => (cache, fleet)) = get react number cache key := rfl

/-- What a get comes to that is not refused. The reader resolves it and counts it, as a get does on the tiers that the
reader sees; or the reader leaves the fleet as it is, and the writer purges and gets what it finds. -/
inductive Completes (react : Reaction Key Value) (number : Nat) (cache : Cache Key Value) (key : Key)
    (meanwhile : Fleet Key Value → Cache Key Value × Fleet Key Value) (fleet : Fleet Key Value) :
    Option Value → Fleet Key Value → Prop where
  | hit {value : Value} {after : Fleet Key Value}
      (got : cache.tiers.get (host react number cache.listener) key fleet = (some value, cache.tiers, after))
      (kept : after.caches[number]?.map Cache.tiers = some cache.tiers) :
      Completes react number cache key meanwhile fleet (some value) after
  | missed {tiers : Tiers Key Value} {after : Fleet Key Value}
      (got : cache.tiers.get (host react number cache.listener) key fleet = (none, tiers, after))
      (drops : Tiers.DropsDead key (fleet.moment cache) cache.tiers tiers)
      (kept : after.caches[number]?.map Cache.tiers = some cache.tiers) :
      Completes react number cache key meanwhile fleet none after
  | written {answer : Option Value} {after : Fleet Key Value}
      (untouched : cache.tiers.lookup (host react number cache.listener) key fleet = (.needsWrite, fleet))
      (free : (meanwhile fleet).1.hold = .free)
      (worked : work react number (meanwhile fleet).1 (.get key) (meanwhile fleet).2 = (.value answer, after))
      (stored : ∀ value, answer = some value → (meanwhile fleet).1.tiers.Stores key value) :
      Completes react number cache key meanwhile fleet answer after

theorem operateHeld_get_eq (host : Host (Fleet Key Value) Key Value) (key : Key) (tiers : Tiers Key Value)
    (fleet : Fleet Key Value) :
    Tiers.operateHeld host (.get key) tiers fleet =
      (purgingFirst (fun host tiers => tiers.get host key) host tiers fleet).map .value id :=
  operateHeld_of_carriesOut (by simp) (fun _ _ _ => rfl) host tiers fleet

theorem write_get_of_free (free : cache.hold = .free) :
    write react number cache "get" (fun host tiers => tiers.get host key) fleet =
      (.ok (purgingFirst (fun host tiers => tiers.get host key) (host react number cache.listener) cache.tiers
          (fleet.hold number .exclusive)).1,
        (work react number cache (.get key) fleet).2) := by
  refine exclusively_of_free free (fun host tiers fleet => ?_) "get"
  rw [operateHeld_get_eq, Prod.map_snd, id]

/-- A writer that completes a get found its cache free, and what it answers was stored there. -/
theorem write_get_completes (completes : (write react number cache "get" (fun host tiers => tiers.get host key) fleet).1 =
      .ok answer) :
    cache.hold = .free ∧
      work react number cache (.get key) fleet =
        (.value answer, (write react number cache "get" (fun host tiers => tiers.get host key) fleet).2) ∧
        ∀ value, answer = some value → cache.tiers.Stores key value := by
  cases held : cache.hold with
  | held mode =>
      rw [write, exclusively, held] at completes
      cases mode <;> cases completes
  | free =>
      rw [write_get_of_free held] at completes ⊢
      obtain rfl := Except.ok.inj completes
      refine ⟨rfl, Prod.ext ?_ rfl, fun value answered => ?_⟩
      · rw [work, operateHeld_get_eq, Prod.map_fst]
      · rw [purgingFirst] at answered
        exact Tiers.purgeSoft_storesNoMore _ _ _ _ _ (Tiers.get_stored _ _ _ answered)

theorem getAcross_completes (found : fleet.caches[number]? = some cache) (valid : cache.tiers.Valid)
    (completes : (getAcross react number cache key meanwhile fleet).1 = .ok answer) :
    Completes react number cache key meanwhile fleet answer (getAcross react number cache key meanwhile fleet).2 := by
  have still := moment_record react number cache.listener .getCall fleet
  have anticipates := valid.lookup_anticipates still key
  rw [moment_host found] at anticipates
  have kept := (tiers_lookup react number cache.listener key cache.tiers fleet).2
  rw [found] at kept
  cases shared : cache.hold.admits .shared with
  | false =>
      rw [getAcross, shared] at completes
      cases completes
  | true =>
      rw [getAcross, shared] at completes ⊢
      simp only [↓reduceIte] at completes ⊢
      generalize looked : cache.tiers.lookup (host react number cache.listener) key fleet = lookup at *
      generalize got : cache.tiers.get (host react number cache.listener) key fleet = outcome at *
      cases anticipates with
      | hit value counted =>
          cases completes
          exact .hit got kept
      | miss counted drops =>
          cases completes
          exact .missed got drops kept
      | needsWrite value after counted =>
          obtain ⟨free, worked, stored⟩ := write_get_completes completes
          exact .written looked free worked stored

/-- What a lookup finds is what a get comes to, with the same counts or none. So a get that completes is one made at once:
on what its reader saw, or on what its writer found, after a purge. -/
theorem gets_are_made_at_once {tiers : Tiers Key Value} (reachable : tiers.Reachable) (key : Key) :
    (∀ {World : Type} (host : Host World Key Value) (world : World),
        host.moment (host.record .getCall world) = host.moment world →
          Tiers.Anticipates key (host.moment world) tiers world (tiers.lookup host key world) (tiers.get host key world)) ∧
      ∀ (react : Reaction Key Value) (number : Nat) (cache : Cache Key Value) (fleet : Fleet Key Value),
        fleet.caches[number]? = some cache → cache.tiers = tiers →
          ∀ (meanwhile : Fleet Key Value → Cache Key Value × Fleet Key Value) (answer : Option Value),
            (getAcross react number cache key meanwhile fleet).1 = .ok answer →
              Completes react number cache key meanwhile fleet answer
                (getAcross react number cache key meanwhile fleet).2 := by
  refine ⟨fun host world still => reachable.valid.lookup_anticipates still key, ?_⟩
  rintro react number cache fleet found rfl meanwhile answer completes
  exact getAcross_completes found reachable.valid completes

/-- A reader leaves a key to a writer, who finds that it was removed meanwhile and answers that it has no value. -/
theorem key_removed_meanwhile :
    let settings : Settings := { lru := true, cacheSize := 1 }
    let fleet : Fleet Nat Nat := (ofSettings [settings]).converse [.mk 0 (.put 1 10)]
    let cache := fleet.caches[0]?.getD (.ofSettings settings)
    let meanwhile : Fleet Nat Nat → Cache Nat Nat × Fleet Nat Nat := fun fleet =>
      let removed := (perform (reactTo 1) (.mk 0 (.remove 1)) fleet).2
      (removed.caches[0]?.getD cache, removed)
    (cache.tiers.lookup (host (reactTo 1) 0 cache.listener) 1 fleet).1 = .needsWrite ∧
      Completes (reactTo 1) 0 cache 1 meanwhile fleet none (getAcross (reactTo 1) 0 cache 1 meanwhile fleet).2 ∧
        Tiers.Anticipates 1 ⟨0, 0⟩ cache.tiers .zero (cache.tiers.lookup (.still ⟨0, 0⟩) 1 .zero)
          (cache.tiers.get (.still ⟨0, 0⟩) 1 .zero) := by
  intro settings fleet cache meanwhile
  have unresolved : (cache.tiers.lookup (host (reactTo 1) 0 cache.listener) 1 fleet).1 = .needsWrite := by
    decide +kernel
  have stored : fleet.caches[0]?.isSome = true := by decide +kernel
  have found : fleet.caches[0]? = some cache := by
    obtain ⟨first, present⟩ := Option.isSome_iff_exists.mp stored
    rw [present]
    exact congrArg some (congrArg (fun first => Option.getD first _) present).symm
  have passed := converse_related (@passed_closed Nat Nat _ _) (ofSettings [settings]) [.mk 0 (.put 1 10)]
  have dated := passed.dated (ofSettings_dated [settings])
  obtain ⟨lookups, gets⟩ := gets_are_made_at_once (dated.reachable 0 cache found) 1
  have answered : (getAcross (reactTo 1) 0 cache 1 meanwhile fleet).1.toOption = some none := by decide +kernel
  have completes : (getAcross (reactTo 1) 0 cache 1 meanwhile fleet).1 = .ok none := by
    revert answered
    cases (getAcross (reactTo 1) 0 cache 1 meanwhile fleet).1 with
    | error timeout => exact nofun
    | ok value => exact fun same => congrArg Except.ok (Option.some.inj same)
  exact ⟨unresolved, gets (reactTo 1) 0 cache fleet found rfl meanwhile none completes, lookups (.still ⟨0, 0⟩) .zero rfl⟩

end LayeredCache.Fleet
