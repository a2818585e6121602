import LayeredCache.Proofs.Tiers.Dialogue

/-! The same operation in two worlds. Hosts that tell the same moment in related worlds, and keep the worlds related,
cannot be told apart by an operation: it gives the same result and the same tiers, and the worlds stay related. A
property of one world that its host keeps is the case in which the worlds are equal. -/

set_option autoImplicit false

namespace LayeredCache

variable {World Other Key Value Result : Type}

structure Host.Simulates (host : Host World Key Value) (other : Host Other Key Value)
    (related : World → Other → Prop) : Prop where
  clock : ∀ {world image}, related world image → host.clock world = other.clock image
  epoch : ∀ {world image}, related world image → host.epoch world = other.epoch image
  record : ∀ recording {world image}, related world image →
    related (host.record recording world) (other.record recording image)
  notify : ∀ event {world image}, related world image →
    related (host.notify event world) (other.notify event image)

theorem Host.Simulates.moment {host : Host World Key Value} {other : Host Other Key Value}
    {related : World → Other → Prop} (simulates : host.Simulates other related) {world : World}
    {image : Other} (start : related world image) : host.moment world = other.moment image := by
  rw [Host.moment, Host.moment, simulates.clock start, simulates.epoch start]

/-- Nothing that a cache does to its surroundings breaks a property of them. -/
structure Host.Keeps (host : Host World Key Value) (holds : World → Prop) : Prop where
  record : ∀ recording {world}, holds world → holds (host.record recording world)
  notify : ∀ event {world}, holds world → holds (host.notify event world)

theorem Host.keeps_true (host : Host World Key Value) : host.Keeps fun _ => True :=
  ⟨fun _ _ _ => trivial, fun _ _ _ => trivial⟩

/-- Whatever a cache does to its surroundings, they stay related to what they were. -/
structure Host.Moves (host : Host World Key Value) (related : World → World → Prop) : Prop where
  record : ∀ recording world, related world (host.record recording world)
  notify : ∀ event world, related world (host.notify event world)

theorem Host.Moves.imp {host : Host World Key Value} {related weaker : World → World → Prop}
    (moves : host.Moves related) (weaken : ∀ {before after}, related before after → weaker before after) :
    host.Moves weaker :=
  ⟨fun recording world => weaken (moves.record recording world),
    fun event world => weaken (moves.notify event world)⟩

/-- What a world is related to, a host that moves within a preorder keeps related to it. -/
theorem Host.Moves.keeps {host : Host World Key Value} {related : World → World → Prop}
    (moves : host.Moves related) (trans : ∀ {first second third}, related first second →
      related second third → related first third) (start : World) : host.Keeps (related start) :=
  ⟨fun recording world before => trans before (moves.record recording world),
    fun event world before => trans before (moves.notify event world)⟩

theorem Host.Keeps.simulates {host : Host World Key Value} {holds : World → Prop}
    (keeps : host.Keeps holds) : host.Simulates host fun world image => world = image ∧ holds world where
  clock := by
    rintro world image ⟨rfl, -⟩
    rfl
  epoch := by
    rintro world image ⟨rfl, -⟩
    rfl
  record := by
    rintro recording world image ⟨rfl, held⟩
    exact ⟨rfl, keeps.record recording held⟩
  notify := by
    rintro event world image ⟨rfl, held⟩
    exact ⟨rfl, keeps.notify event held⟩

namespace Tiers

variable [DecidableEq Key] {host : Host World Key Value} {other : Host Other Key Value}
  {related : World → Other → Prop} {world : World} {image : Other}

/-- The same tiers, in related worlds. -/
def Alike (related : World → Other → Prop) (left : Tiers Key Value × World)
    (right : Tiers Key Value × Other) : Prop :=
  left.1 = right.1 ∧ related left.2 right.2

/-- The same result and the same tiers, in related worlds. -/
def SameOutcome (related : World → Other → Prop) (left : Result × Tiers Key Value × World)
    (right : Result × Tiers Key Value × Other) : Prop :=
  left.1 = right.1 ∧ Alike related left.2 right.2

omit [DecidableEq Key] in
/-- What a host is told and asked leads to the same in related worlds. -/
theorem run_simulates (simulates : host.Simulates other related) (dialogue : Dialogue Key Value Result)
    (start : related world image) :
    (dialogue.run host world).1 = (dialogue.run other image).1 ∧
      related (dialogue.run host world).2 (dialogue.run other image).2 := by
  induction dialogue generalizing world image with
  | done result => exact ⟨rfl, start⟩
  | record recording next ih => exact ih (simulates.record recording start)
  | notify event next ih => exact ih (simulates.notify event start)
  | clock next ih =>
      rw [Dialogue.run, Dialogue.run, simulates.clock start]
      exact ih _ start
  | epoch next ih =>
      rw [Dialogue.run, Dialogue.run, simulates.epoch start]
      exact ih _ start

theorem perform_simulates (simulates : host.Simulates other related)
    (dialogue : Dialogue Key Value (Result × Tiers Key Value)) (start : related world image) :
    SameOutcome related (dialogue.perform host world) (dialogue.perform other image) := by
  obtain ⟨same, after⟩ := run_simulates simulates dialogue start
  exact ⟨congrArg Prod.fst same, congrArg Prod.snd same, after⟩

theorem demote_simulates (simulates : host.Simulates other related) (instant : Instant)
    (entry : Key × Value) (tiers : Tiers Key Value) (start : related world image) :
    Alike related (demote host instant entry tiers world) (demote other instant entry tiers image) := by
  rw [← Dialogue.run_demote, ← Dialogue.run_demote]
  exact run_simulates simulates _ start

theorem insertPrimary_simulates (simulates : host.Simulates other related) (instant : Instant)
    (key : Key) (value : Value) (tiers : Tiers Key Value) (start : related world image) :
    SameOutcome related (insertPrimary host instant key value tiers world)
      (insertPrimary other instant key value tiers image) := by
  rw [← Dialogue.perform_insertPrimary, ← Dialogue.perform_insertPrimary]
  exact perform_simulates simulates _ start

theorem pin_simulates (simulates : host.Simulates other related) (key : Key)
    (tiers : Tiers Key Value) (start : related world image) :
    SameOutcome related (pin host key tiers world) (pin other key tiers image) := by
  rw [← Dialogue.perform_pin, ← Dialogue.perform_pin]
  exact perform_simulates simulates _ start

theorem putEntry_simulates (simulates : host.Simulates other related) (replaceExisting : Bool)
    (entry : Entry Key Value) (tiers : Tiers Key Value) (start : related world image) :
    Alike related (putEntry host replaceExisting entry tiers world)
      (putEntry other replaceExisting entry tiers image) := by
  rw [← Dialogue.run_putEntry, ← Dialogue.run_putEntry]
  exact run_simulates simulates _ start

theorem setCacheSize_simulates (simulates : host.Simulates other related) (capacity : Nat)
    (tiers : Tiers Key Value) (start : related world image) :
    Alike related (setCacheSize host capacity tiers world) (setCacheSize other capacity tiers image) := by
  rw [← Dialogue.run_setCacheSize, ← Dialogue.run_setCacheSize]
  exact run_simulates simulates _ start

theorem purgeSoft_simulates (simulates : host.Simulates other related) (tiers : Tiers Key Value)
    (start : related world image) :
    SameOutcome related (purgeSoft host tiers world) (purgeSoft other tiers image) := by
  rw [← Dialogue.perform_purgeSoft, ← Dialogue.perform_purgeSoft]
  exact perform_simulates simulates _ start

theorem lookup_simulates (simulates : host.Simulates other related) (key : Key)
    (tiers : Tiers Key Value) (start : related world image) :
    (lookup host key tiers world).1 = (lookup other key tiers image).1 ∧
      related (lookup host key tiers world).2 (lookup other key tiers image).2 := by
  have called := simulates.record .getCall start
  simp only [lookup, simulates.moment start]
  split
  · exact ⟨rfl, simulates.record _ called⟩
  · exact ⟨rfl, simulates.record _ called⟩
  · split
    · split
      · exact ⟨rfl, start⟩
      · exact ⟨rfl, simulates.record _ called⟩
    · split
      · exact ⟨rfl, start⟩
      · exact ⟨rfl, simulates.record _ called⟩

end Tiers

end LayeredCache
