import LayeredCache.Proofs.Tiers.Operation

/-! How the writer of a cache that others read serves an operation: with a lookup first where a value is asked for, and a
purge before anything else is done. -/

set_option autoImplicit false

namespace LayeredCache

variable {World Other Key Value : Type} [DecidableEq Key]

namespace Tiers

/-- An operation after a purge. -/
def operatePurged (host : Host World Key Value) (operation : Operation Key Value)
    (tiers : Tiers Key Value) (world : World) : Answer Value × Tiers Key Value × World :=
  let purged := purgeSoft host tiers world
  operate host operation purged.2.1 purged.2.2

/-- What a writer does for an operation once it holds its cache. -/
def operateHeld (host : Host World Key Value) (operation : Operation Key Value)
    (tiers : Tiers Key Value) (world : World) : Answer Value × Tiers Key Value × World :=
  match operation with
  | .purgeSoft => operate host .purgeSoft tiers world
  | .put _ _ | .get _ | .remove _ | .pin _ | .unpin _ | .putAll _ _ | .clear | .setCacheSize _
  | .setSoftReferenceSize _ => operatePurged host operation tiers world

/-- What a writer of a cache does for an operation. A lookup comes first where a value is asked for, and a purge where
anything else is to be done. -/
def serve (host : Host World Key Value) (operation : Operation Key Value) (tiers : Tiers Key Value)
    (world : World) : Answer Value × Tiers Key Value × World :=
  match operation with
  | .get key =>
      match lookup host key tiers world with
      | (.hit value, world) => (.value (some value), tiers, world)
      | (.miss, world) => (.value none, tiers, world)
      | (.needsWrite, world) => operatePurged host (.get key) tiers world
  | .purgeSoft => operate host .purgeSoft tiers world
  | .put _ _ | .remove _ | .pin _ | .unpin _ | .putAll _ _ | .clear | .setCacheSize _
  | .setSoftReferenceSize _ => operatePurged host operation tiers world

theorem operateHeld_cases (host : Host World Key Value) (operation : Operation Key Value)
    (tiers : Tiers Key Value) (world : World) :
    (operation = .purgeSoft ∧
        operateHeld host operation tiers world = operate host .purgeSoft tiers world) ∨
      operateHeld host operation tiers world = operatePurged host operation tiers world := by
  cases operation with
  | purgeSoft => exact .inl ⟨rfl, rfl⟩
  | _ => exact .inr rfl

variable {tiers : Tiers Key Value}

/-- What a writer that holds its cache says to its host. -/
def dialogueHeld (operation : Operation Key Value) (tiers : Tiers Key Value) :
    Dialogue Key Value (Answer Value × Tiers Key Value) :=
  match operation with
  | .purgeSoft => dialogue .purgeSoft tiers
  | operation => (Dialogue.purgeSoft tiers).followedBy (dialogue operation)

theorem perform_dialogueHeld (host : Host World Key Value) (operation : Operation Key Value)
    (tiers : Tiers Key Value) (world : World) :
    (dialogueHeld operation tiers).perform host world = operateHeld host operation tiers world := by
  have purged : ((Dialogue.purgeSoft tiers).followedBy (dialogue operation)).perform host world =
      operatePurged host operation tiers world := by
    rw [Dialogue.perform_followedBy, Dialogue.perform_purgeSoft, perform_dialogue]
    rfl
  cases operation with
  | purgeSoft => exact perform_dialogue host .purgeSoft tiers world
  | _ => exact purged

theorem operateHeld_simulates {host : Host World Key Value} {other : Host Other Key Value}
    {related : World → Other → Prop} (simulates : host.Simulates other related) (operation : Operation Key Value)
    (tiers : Tiers Key Value) {world : World} {image : Other} (start : related world image) :
    SameOutcome related (operateHeld host operation tiers world) (operateHeld other operation tiers image) := by
  rw [← perform_dialogueHeld, ← perform_dialogueHeld]
  exact perform_simulates simulates _ start

theorem operateHeld_keeps {host : Host World Key Value} {holds : World → Prop} (keeps : host.Keeps holds)
    (operation : Operation Key Value) (tiers : Tiers Key Value) {world : World} (held : holds world) :
    holds (operateHeld host operation tiers world).2.2 :=
  (operateHeld_simulates keeps.simulates operation tiers ⟨rfl, held⟩).2.2.2

/-- What a writer does leads from its world to the one after the purge, and on from there. -/
theorem operateHeld_moves {host : Host World Key Value} {related : World → World → Prop}
    (moves : host.Moves related) (refl : ∀ world, related world world)
    (trans : ∀ {first second third}, related first second → related second third → related first third)
    (operation : Operation Key Value) (tiers : Tiers Key Value) (world : World) :
    related world (purgeSoft host tiers world).2.2 ∧
      related (purgeSoft host tiers world).2.2 (operateHeld host operation tiers world).2.2 := by
  have purged := (purgeSoft_simulates (moves.keeps trans world).simulates tiers ⟨rfl, refl world⟩).2.2.2
  refine ⟨purged, ?_⟩
  rcases operateHeld_cases host operation tiers world with ⟨-, purges⟩ | operates
  · rw [purges]
    exact refl _
  · rw [operates]
    exact (operate_simulates (moves.keeps trans _).simulates operation _ ⟨rfl, refl _⟩).2.2.2

theorem Reachable.operateHeld (reachable : tiers.Reachable) {World : Type} (host : Host World Key Value)
    (operation : Operation Key Value) (world : World) :
    (Tiers.operateHeld host operation tiers world).2.1.Reachable := by
  have purged := reachable.step host .purgeSoft world
  rcases operateHeld_cases host operation tiers world with ⟨-, purges⟩ | operates
  · rw [purges]
    exact purged
  · rw [operates]
    exact purged.step host operation _

theorem Valid.operatePurged (valid : tiers.Valid) (host : Host World Key Value)
    (operation : Operation Key Value) (world : World) :
    (Tiers.operatePurged host operation tiers world).2.1.Valid :=
  (valid.purgeSoft host world).operate host operation _

theorem Valid.serve (valid : tiers.Valid) (host : Host World Key Value)
    (operation : Operation Key Value) (world : World) :
    (Tiers.serve host operation tiers world).2.1.Valid := by
  cases operation with
  | get key =>
      rw [Tiers.serve]
      split
      · exact valid
      · exact valid
      · exact valid.operatePurged host (.get key) _
  | purgeSoft => exact valid.operate host .purgeSoft world
  | put _ _ | remove _ | pin _ | unpin _ | putAll _ _ | clear | setCacheSize _
  | setSoftReferenceSize _ => exact valid.operatePurged host _ world

end Tiers

end LayeredCache
