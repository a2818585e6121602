import LayeredCache.Fleet.Perform
import LayeredCache.Proofs.Tiers.Operation

/-! How the caches of a fleet are reached and changed one at a time, and which operation on tiers a write of the fleet
carries out. -/

set_option autoImplicit false

namespace LayeredCache

variable {Key Value Result : Type} [DecidableEq Key]

namespace Fleet

variable {fleet : Fleet Key Value} {number : Nat} {cache : Cache Key Value}

/-- The fleet after calls from outside, in order. -/
def callAll [BEq Value] (fleet : Fleet Key Value) (requests : List (Call Key Value)) :
    Fleet Key Value :=
  requests.foldl (fun fleet request => (fleet.call request).2) fleet

theorem find?_eq_some_iff {handle : Nat} :
    fleet.find? handle = some (number, cache) ↔
      fleet.handles[handle]? = some number ∧ fleet.caches[number]? = some cache := by
  simp only [find?, Option.bind_eq_bind, Option.bind_eq_some_iff, Option.pure_def, Option.some.injEq,
    Prod.mk.injEq]
  constructor
  · rintro ⟨found, handled, stored, cached, rfl, rfl⟩
    exact ⟨handled, cached⟩
  · rintro ⟨handled, cached⟩
    exact ⟨number, handled, cache, cached, rfl, rfl⟩

theorem caches_adjust (fleet : Fleet Key Value) (number other : Nat)
    (change : Cache Key Value → Cache Key Value) :
    (fleet.adjust number change).caches[other]? =
      if number = other then fleet.caches[other]?.map change else fleet.caches[other]? := by
  rw [adjust, Array.getElem?_modify]

/-- What a change leaves alone can be read off a cache after a change of this cache, or of another, as before. -/
theorem map_adjust {Reading : Type} (read : Cache Key Value → Reading) (fleet : Fleet Key Value) (other number : Nat)
    {change : Cache Key Value → Cache Key Value} (same : ∀ cache, read (change cache) = read cache) :
    (fleet.adjust other change).caches[number]?.map read = fleet.caches[number]?.map read := by
  rw [caches_adjust]
  split
  · rw [Option.map_map]
    exact congrArg (fun change => Option.map change _) (funext same)
  · rfl

theorem tiers_adjust (fleet : Fleet Key Value) (other number : Nat)
    {change : Cache Key Value → Cache Key Value} (same : ∀ cache, (change cache).tiers = cache.tiers) :
    (fleet.adjust other change).caches[number]?.map Cache.tiers = fleet.caches[number]?.map Cache.tiers :=
  map_adjust Cache.tiers fleet other number same

theorem modify_modify {Element : Type} (elements : Array Element) (index : Nat)
    (first second : Element → Element) :
    (elements.modify index first).modify index second =
      elements.modify index fun element => second (first element) := by
  apply Array.ext_getElem?
  intro other
  simp only [Array.getElem?_modify]
  split
  · rw [Option.map_map]
    rfl
  · rfl

theorem adjust_adjust (fleet : Fleet Key Value) (number : Nat)
    (first second : Cache Key Value → Cache Key Value) :
    (fleet.adjust number first).adjust number second =
      fleet.adjust number fun cache => second (first cache) := by
  simp only [adjust, modify_modify]

/-- A body of a write carries out an operation on tiers when it does the same and answers the same, in another
form. -/
def CarriesOut (operation : Operation Key Value) (wrap : Result → Answer Value)
    (body : Host (Fleet Key Value) Key Value → Tiers Key Value → Fleet Key Value →
      Result × Tiers Key Value × Fleet Key Value) : Prop :=
  ∀ host tiers fleet, Tiers.operate host operation tiers fleet = (body host tiers fleet).map wrap id

end Fleet

end LayeredCache
