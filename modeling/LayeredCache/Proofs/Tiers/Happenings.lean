import LayeredCache.Proofs.Tiers.Serving

/-! What a host is asked to count and notified of in the course of an operation, with the worlds before and after. What
holds along everything that happens holds of the outcome; and an operation before another host, which tells the same
moments as long as nothing unwelcome has happened before the first, comes to the same. -/

set_option autoImplicit false

namespace LayeredCache

open Metrics (Recording)

variable {World Other Key Value Result Next : Type}

/-- An event, the world in which a host was told of it, and the one that came of it. -/
structure Happening (World Key Value : Type) where
  event : Event Key Value
  before : World
  after : World

namespace Dialogue

def happenings (host : Host World Key Value) :
    Dialogue Key Value Result → World → List (Happening World Key Value)
  | done _, _ => []
  | record recording next, world => next.happenings host (host.record recording world)
  | notify event next, world =>
      let after := host.notify event world
      ⟨event, world, after⟩ :: next.happenings host after
  | clock next, world => (next (host.clock world)).happenings host world
  | epoch next, world => (next (host.epoch world)).happenings host world

/-- What a host is asked to count, in order. -/
def recordings (host : Host World Key Value) : Dialogue Key Value Result → World → List Recording
  | done _, _ => []
  | record recording next, world => recording :: next.recordings host (host.record recording world)
  | notify event next, world => next.recordings host (host.notify event world)
  | clock next, world => (next (host.clock world)).recordings host world
  | epoch next, world => (next (host.epoch world)).recordings host world

theorem happenings_notified (host : Host World Key Value) (dialogue : Dialogue Key Value Result) (world : World) :
    ∀ happening ∈ dialogue.happenings host world, happening.after = host.notify happening.event happening.before := by
  induction dialogue generalizing world with
  | done result => exact nofun
  | record recording next ih => exact ih _
  | notify event next ih => exact List.forall_mem_cons.mpr ⟨rfl, ih _⟩
  | clock next ih => exact ih _ world
  | epoch next ih => exact ih _ world

/-- If whatever a host counts and is told leaves its worlds related, so does a dialogue. -/
theorem run_related {host : Host World Key Value} {related : World → World → Prop}
    (refl : ∀ world, related world world)
    (trans : ∀ {first second third}, related first second → related second third → related first third)
    (counted : ∀ recording world, related world (host.record recording world))
    (dialogue : Dialogue Key Value Result) {world : World}
    (told : ∀ happening ∈ dialogue.happenings host world, related happening.before happening.after) :
    related world (dialogue.run host world).2 ∧
      ∀ happening ∈ dialogue.happenings host world, related world happening.after := by
  induction dialogue generalizing world with
  | done result => exact ⟨refl world, List.forall_mem_nil _⟩
  | record recording next ih =>
      obtain ⟨ended, later⟩ := ih told
      have first := counted recording world
      exact ⟨trans first ended, fun happening happened => trans first (later happening happened)⟩
  | notify event next ih =>
      obtain ⟨first, others⟩ := List.forall_mem_cons.mp told
      obtain ⟨ended, later⟩ := ih others
      refine ⟨trans first ended, List.forall_mem_cons.mpr ⟨first, ?_⟩⟩
      exact fun happening happened => trans first (later happening happened)
  | clock next ih => exact ih _ told
  | epoch next ih => exact ih _ told

theorem happenings_bind (host : Host World Key Value) (dialogue : Dialogue Key Value Result)
    (rest : Result → Dialogue Key Value Next) (world : World) :
    (dialogue >>= rest).happenings host world = dialogue.happenings host world ++
      (rest (dialogue.run host world).1).happenings host (dialogue.run host world).2 := by
  change (dialogue.bind rest).happenings host world = _
  induction dialogue generalizing world with
  | done result => rfl
  | record recording next ih => exact ih _
  | notify event next ih => exact congrArg (List.cons _) (ih _)
  | clock next ih => exact ih _ _
  | epoch next ih => exact ih _ _

end Dialogue

/-- What stays true of a world, of what has been counted and of what has happened so far. -/
structure Host.Accompanies (host : Host World Key Value)
    (along : List Recording → List (Happening World Key Value) → World → Prop) : Prop where
  record : ∀ recording {counted happened world}, along counted happened world →
    along (counted ++ [recording]) happened (host.record recording world)
  notify : ∀ event {counted happened world}, along counted happened world →
    along counted (happened ++ [⟨event, world, host.notify event world⟩]) (host.notify event world)

theorem Dialogue.accompany {host : Host World Key Value}
    {along : List Recording → List (Happening World Key Value) → World → Prop}
    (accompanies : host.Accompanies along) (dialogue : Dialogue Key Value Result) {counted : List Recording}
    {happened : List (Happening World Key Value)} {world : World} (start : along counted happened world) :
    along (counted ++ dialogue.recordings host world) (happened ++ dialogue.happenings host world)
      (dialogue.run host world).2 := by
  induction dialogue generalizing counted happened world with
  | done result =>
      rw [recordings, happenings, List.append_nil, List.append_nil]
      exact start
  | record recording next ih =>
      rw [recordings, List.append_cons]
      exact ih (accompanies.record recording start)
  | notify event next ih =>
      rw [happenings, List.append_cons]
      exact ih (accompanies.notify event start)
  | clock next ih => exact ih _ start
  | epoch next ih => exact ih _ start

/-- A host tells the same moments as another, and their worlds stay related, as long as what happens before it is
welcome. -/
structure Host.Shadows (host : Host World Key Value) (other : Host Other Key Value)
    (welcome : Happening World Key Value → Prop) (related : World → Other → Prop) : Prop where
  clock : ∀ {world image}, related world image → host.clock world = other.clock image
  epoch : ∀ {world image}, related world image → host.epoch world = other.epoch image
  record : ∀ recording {world image}, related world image →
    related (host.record recording world) (other.record recording image)
  notify : ∀ event {world image}, related world image → welcome ⟨event, world, host.notify event world⟩ →
    related (host.notify event world) (other.notify event image)

theorem Dialogue.run_shadows {host : Host World Key Value} {other : Host Other Key Value}
    {welcome : Happening World Key Value → Prop} {related : World → Other → Prop}
    (shadows : host.Shadows other welcome related) (dialogue : Dialogue Key Value Result) {world : World}
    {image : Other} (start : related world image)
    (all : ∀ happening ∈ dialogue.happenings host world, welcome happening) :
    (dialogue.run host world).1 = (dialogue.run other image).1 ∧
      related (dialogue.run host world).2 (dialogue.run other image).2 := by
  induction dialogue generalizing world image with
  | done result => exact ⟨rfl, start⟩
  | record recording next ih => exact ih (shadows.record recording start) all
  | notify event next ih =>
      obtain ⟨first, rest⟩ := List.forall_mem_cons.mp all
      exact ih (shadows.notify event start first) rest
  | clock next ih =>
      rw [run, run, ← shadows.clock start]
      exact ih _ start all
  | epoch next ih =>
      rw [run, run, ← shadows.epoch start]
      exact ih _ start all

/-- Hosts that differ in what comes of an event at most are alike to a dialogue in which the same comes of it, wherever
both are told the same in the same world. -/
theorem Dialogue.run_agree {host other : Host World Key Value} (clock : host.clock = other.clock)
    (epoch : host.epoch = other.epoch) (record : host.record = other.record) (dialogue : Dialogue Key Value Result)
    {world : World}
    (agree : ∀ happening ∈ dialogue.happenings host world, ∀ twin ∈ dialogue.happenings other world,
      happening.event = twin.event → happening.before = twin.before → happening.after = twin.after) :
    dialogue.run host world = dialogue.run other world := by
  induction dialogue generalizing world with
  | done result => rfl
  | record recording next ih =>
      rw [happenings, happenings, record] at agree
      rw [run, run, record]
      exact ih agree
  | notify event next ih =>
      have same : host.notify event world = other.notify event world :=
        agree _ List.mem_cons_self _ List.mem_cons_self rfl rfl
      rw [happenings, happenings, ← same] at agree
      rw [run, run, ← same]
      refine ih ?_
      intro happening happened twin told
      exact agree happening (List.mem_cons_of_mem _ happened) twin (List.mem_cons_of_mem _ told)
  | clock next ih =>
      rw [happenings, happenings, clock] at agree
      rw [run, run, clock]
      exact ih _ agree
  | epoch next ih =>
      rw [happenings, happenings, epoch] at agree
      rw [run, run, epoch]
      exact ih _ agree

namespace Tiers

variable [DecidableEq Key] {host : Host World Key Value}

/-- What happens while a writer carries an operation out. -/
def happenings (host : Host World Key Value) (operation : Operation Key Value) (tiers : Tiers Key Value)
    (world : World) : List (Happening World Key Value) :=
  (dialogueHeld operation tiers).happenings host world

/-- What happens to a writer: first what its purge is told of, and then what its operation is told of. -/
theorem happenings_held {operation : Operation Key Value} (other : operation ≠ .purgeSoft)
    (host : Host World Key Value) (tiers : Tiers Key Value) (world : World) :
    happenings host operation tiers world = (dialogue .purgeSoft tiers).happenings host world ++
      (dialogue operation (Tiers.purgeSoft host tiers world).2.1).happenings host
        (Tiers.purgeSoft host tiers world).2.2 := by
  have purged : (dialogue .purgeSoft tiers).happenings host world = (Dialogue.purgeSoft tiers).happenings host world := by
    rw [dialogue, Dialogue.wrapping, Dialogue.happenings_bind]
    exact List.append_nil _
  have both : ∀ operation, ((Dialogue.purgeSoft tiers).followedBy (dialogue operation)).happenings host world =
      (dialogue .purgeSoft tiers).happenings host world ++
        (dialogue operation (Tiers.purgeSoft host tiers world).2.1).happenings host
          (Tiers.purgeSoft host tiers world).2.2 := by
    intro operation
    rw [purged, ← Dialogue.perform_purgeSoft]
    exact Dialogue.happenings_bind host _ _ world
  cases operation with
  | purgeSoft => exact absurd rfl other
  | _ => exact both _

theorem operateHeld_accompanied {along : List Recording → List (Happening World Key Value) → World → Prop}
    (accompanies : host.Accompanies along) (operation : Operation Key Value) (tiers : Tiers Key Value) {world : World}
    (start : along [] [] world) :
    along ((dialogueHeld operation tiers).recordings host world) (happenings host operation tiers world)
      (operateHeld host operation tiers world).2.2 := by
  rw [← perform_dialogueHeld]
  exact (dialogueHeld operation tiers).accompany accompanies start

theorem operateHeld_shadows {other : Host Other Key Value} {welcome : Happening World Key Value → Prop}
    {related : World → Other → Prop} (shadows : host.Shadows other welcome related) (operation : Operation Key Value)
    (tiers : Tiers Key Value) {world : World} {image : Other} (start : related world image)
    (all : ∀ happening ∈ happenings host operation tiers world, welcome happening) :
    SameOutcome related (operateHeld host operation tiers world) (operateHeld other operation tiers image) := by
  obtain ⟨same, after⟩ := (dialogueHeld operation tiers).run_shadows shadows start all
  rw [← perform_dialogueHeld, ← perform_dialogueHeld]
  exact ⟨congrArg Prod.fst same, congrArg Prod.snd same, after⟩

end Tiers

end LayeredCache
