import LayeredCache.Proofs.Tier.Lines
import LayeredCache.Proofs.Tiers.Simulation

/-! What an operation does that puts entries into the primary tier or takes away room there. The primary tier keeps the
newest entries of a line, and the others follow, in order, into the soft tier. A host may do what it likes when it
records or notifies; the stamps show only which epochs it told. -/

set_option autoImplicit false

namespace LayeredCache

variable {World Key Value : Type}

namespace Tiers

variable [DecidableEq Key] {host : Host World Key Value} {holds : World → Prop}

/-- The stamps that an operation begun at an instant can give. -/
def StampedAt (host : Host World Key Value) (holds : World → Prop) (instant : Instant)
    (stamp : Moment) : Prop :=
  ∃ world, holds world ∧ stamp = ⟨instant, host.epoch world⟩

/-- From one state to the next, a line of entries has taken the place of the primary tier. -/
structure Settles (stamps : Moment → Prop) (line : List (Key × Value))
    (before after : Tiers Key Value) : Prop where
  pinned : after.pinned = before.pinned
  cacheSize : after.primary.capacity = before.primary.capacity
  order : after.primary.order = before.primary.order
  softReferenceSize : after.soft.capacity = before.soft.capacity
  ttl : after.soft.ttl = before.soft.ttl
  primary : after.primary.toList = line.rtake before.primary.capacity
  soft : ∃ demoted : List (Key × Stamped Value),
    demoted.map Stamped.unstamped = line.rdrop before.primary.capacity ∧
      (∀ entry ∈ demoted, stamps entry.2.stamp) ∧
      after.soft.toList = (before.soft.toList ++ demoted).rtake before.soft.capacity

/-- The world once an overflow of the primary tier is counted and announced. -/
def overflowTold (host : Host World Key Value) (demoted : Bool) (entry : Key × Value) (world : World) :
    World :=
  host.notify (.primaryOverflow entry.1 entry.2 demoted) (host.record (.primaryOverflow demoted) world)

omit [DecidableEq Key] in
theorem overflowTold_keeps (keeps : host.Keeps holds) (demoted : Bool) (entry : Key × Value)
    {world : World} (held : holds world) : holds (overflowTold host demoted entry world) :=
  keeps.notify _ (keeps.record _ held)

/-- Without room in the soft tier, a demotion changes nothing but the world. -/
theorem demote_disabled {tiers : Tiers Key Value} (disabled : tiers.soft.capacity = 0)
    (instant : Instant) (entry : Key × Value) (world : World) :
    demote host instant entry tiers world = (tiers, overflowTold host false entry world) := by
  simp [demote, disabled, overflowTold]

theorem demote_enabled {tiers : Tiers Key Value} (enabled : 0 < tiers.soft.capacity)
    (instant : Instant) (entry : Key × Value) (world : World) :
    let told := overflowTold host true entry world
    let accepted := tiers.soft.accept ⟨instant, host.epoch told⟩ entry.1 entry.2
    demote host instant entry tiers world =
      ({ tiers with soft := accepted.2 },
        accepted.1.elim told fun dropped => announceSoftOverflow host dropped told) := by
  simp only [demote, enabled, decide_true, ↓reduceIte, overflowTold]
  split
  next soft accepted => rw [accepted]; rfl
  next dropped soft accepted => rw [accepted]; rfl

/-- The soft tier after a demotion, with or without room. -/
theorem demote_fst (host : Host World Key Value) (instant : Instant) (entry : Key × Value)
    (tiers : Tiers Key Value) (world : World) :
    ∃ demoted, (demote host instant entry tiers world).1 =
      { tiers with
        soft := (tiers.soft.accept
          ⟨instant, host.epoch (overflowTold host demoted entry world)⟩ entry.1 entry.2).2 } := by
  by_cases disabled : tiers.soft.capacity = 0
  · refine ⟨false, ?_⟩
    rw [demote_disabled disabled, SoftTier.accept_of_capacity_zero disabled]
  · refine ⟨true, ?_⟩
    rw [demote_enabled (Nat.pos_of_ne_zero disabled)]

/-- At most the stored soft entries differ. -/
structure DifferInSoft (before after : Tiers Key Value) : Prop where
  pinned : after.pinned = before.pinned
  primary : after.primary = before.primary
  capacity : after.soft.capacity = before.soft.capacity
  ttl : after.soft.ttl = before.soft.ttl

theorem DifferInSoft.trans {before between after : Tiers Key Value}
    (first : DifferInSoft before between) (second : DifferInSoft between after) :
    DifferInSoft before after where
  pinned := second.pinned.trans first.pinned
  primary := second.primary.trans first.primary
  capacity := second.capacity.trans first.capacity
  ttl := second.ttl.trans first.ttl

theorem demote_differ (host : Host World Key Value) (instant : Instant) (entry : Key × Value)
    (tiers : Tiers Key Value) (world : World) :
    DifferInSoft tiers (demote host instant entry tiers world).1 := by
  obtain ⟨flag, once⟩ := demote_fst host instant entry tiers world
  rw [once]
  exact ⟨rfl, rfl, SoftTier.capacity_accept _ _ _ _, SoftTier.ttl_accept _ _ _ _⟩

theorem demoteAll_differ (host : Host World Key Value) (instant : Instant)
    (entries : List (Key × Value)) (tiers : Tiers Key Value) (world : World) :
    DifferInSoft tiers (demoteAll host instant entries tiers world).1 := by
  induction entries generalizing tiers world with
  | nil => exact ⟨rfl, rfl, rfl, rfl⟩
  | cons entry rest ih => exact (demote_differ host instant entry tiers world).trans (ih _ _)

/-- A demotion appends its entry to the line of the soft tier, which keeps the newest. -/
theorem demote_line (keeps : host.Keeps holds) (instant : Instant) (entry : Key × Value)
    {tiers : Tiers Key Value} {world : World} (held : holds world)
    (fits : tiers.soft.toList.length ≤ tiers.soft.capacity)
    (absent : entry.1 ∉ tiers.soft.toList.map Prod.fst) :
    ∃ stamp, StampedAt host holds instant stamp ∧
      (demote host instant entry tiers world).1.soft.toList =
        (tiers.soft.toList ++ [(entry.1, Stamped.mk entry.2 stamp)]).rtake tiers.soft.capacity := by
  obtain ⟨flag, once⟩ := demote_fst host instant entry tiers world
  refine ⟨_, ⟨_, overflowTold_keeps keeps flag entry held, rfl⟩, ?_⟩
  rw [once, ← SoftTier.offered_of_absent absent]
  exact (SoftTier.accept_line fits _ entry.1 entry.2).2

/-- Entries that can be demoted after one another still can after the first. -/
theorem demote_prepares (host : Host World Key Value) (instant : Instant) {entry : Key × Value}
    {rest : List (Key × Value)} (distinct : ((entry :: rest).map Prod.fst).Nodup)
    {tiers : Tiers Key Value} (world : World) (fits : tiers.soft.toList.length ≤ tiers.soft.capacity)
    (apart : ∀ key ∈ (entry :: rest).map Prod.fst, key ∉ tiers.soft.toList.map Prod.fst) :
    let after := (demote host instant entry tiers world).1
    after.soft.toList.length ≤ after.soft.capacity ∧
      ∀ key ∈ rest.map Prod.fst, key ∉ after.soft.toList.map Prod.fst := by
  rw [List.map_cons, List.nodup_cons] at distinct
  have entryApart : entry.1 ∉ tiers.soft.toList.map Prod.fst := apart entry.1 (by simp)
  obtain ⟨stamp, -, line⟩ := @demote_line World Key Value _ host _ host.keeps_true instant entry tiers
    world trivial fits entryApart
  have capacity := (demote_differ host instant entry tiers world).capacity
  refine ⟨?_, ?_⟩
  · rw [line, capacity]
    exact Line.length_rtake_le _ _
  · intro key member stored
    rw [line] at stored
    have included := ((Line.rtake_sublist _ _).map Prod.fst).subset stored
    rw [List.map_append, List.mem_append] at included
    rcases included with old | added
    · exact apart key (List.mem_cons_of_mem _ member) old
    · have same : key = entry.1 := by simpa using added
      exact distinct.1 (same ▸ member)

/-- Demotions append their entries, in order, to the line of the soft tier, which keeps the newest. -/
theorem demoteAll_line (keeps : host.Keeps holds) (instant : Instant) {entries : List (Key × Value)}
    (distinct : (entries.map Prod.fst).Nodup) {tiers : Tiers Key Value} {world : World}
    (held : holds world) (fits : tiers.soft.toList.length ≤ tiers.soft.capacity)
    (apart : ∀ key ∈ entries.map Prod.fst, key ∉ tiers.soft.toList.map Prod.fst) :
    ∃ demoted : List (Key × Stamped Value), demoted.map Stamped.unstamped = entries ∧
      (∀ entry ∈ demoted, StampedAt host holds instant entry.2.stamp) ∧
      (demoteAll host instant entries tiers world).1.soft.toList =
        (tiers.soft.toList ++ demoted).rtake tiers.soft.capacity := by
  induction entries generalizing tiers world with
  | nil =>
      refine ⟨[], rfl, by simp, ?_⟩
      rw [List.append_nil, Line.rtake_of_fits fits]
      rfl
  | cons entry rest ih =>
      obtain ⟨stamp, given, line⟩ :=
        demote_line keeps instant entry held fits (apart entry.1 (by simp))
      obtain ⟨fitsAfter, apartAfter⟩ := demote_prepares host instant distinct world fits apart
      obtain ⟨demoted, unstamped, stamps, settled⟩ :=
        ih (List.nodup_cons.mp distinct).2
          (demote_simulates keeps.simulates instant entry tiers ⟨rfl, held⟩).2.2 fitsAfter apartAfter
      refine ⟨(entry.1, ⟨entry.2, stamp⟩) :: demoted, ?_, ?_, ?_⟩
      · rw [List.map_cons, unstamped]
        rfl
      · intro stored member
        rcases List.mem_cons.mp member with rfl | later
        · exact given
        · exact stamps stored later
      · rw [demoteAll, settled, line, (demote_differ host instant entry tiers world).capacity,
          Line.rtake_rtake_append, List.append_assoc]
        rfl

/-- An insertion of a new key is the demotion of what it leaves no room for. -/
theorem insertPrimary_absent {tiers : Tiers Key Value} {key : Key}
    (fits : tiers.primary.toList.length ≤ tiers.primary.capacity)
    (absent : Bindings.find? key tiers.primary.toList = none) (host : Host World Key Value)
    (instant : Instant) (value : Value) (world : World) :
    insertPrimary host instant key value tiers world =
      (none, demoteAll host instant
        ((tiers.primary.toList ++ [(key, value)]).rdrop tiers.primary.capacity)
        { tiers with primary := (tiers.primary.insert key value).2 } world) := by
  obtain ⟨outcome, -⟩ := PrimaryTier.insert_absent fits absent value
  have short : ((tiers.primary.toList ++ [(key, value)]).rdrop tiers.primary.capacity).length ≤ 1 := by
    rw [List.rdrop, List.length_take, List.length_append, List.length_singleton]
    omega
  simp only [insertPrimary, outcome]
  cases surplus : (tiers.primary.toList ++ [(key, value)]).rdrop tiers.primary.capacity with
  | nil => rfl
  | cons entry rest =>
      rw [surplus, List.length_cons] at short
      have nothing : rest = [] := List.eq_nil_of_length_eq_zero (by omega)
      rw [nothing]
      rfl

theorem insertPrimary_present {tiers : Tiers Key Value} {key : Key} {old : Value}
    (present : Bindings.find? key tiers.primary.toList = some old) (host : Host World Key Value)
    (instant : Instant) (value : Value) (world : World) :
    insertPrimary host instant key value tiers world =
      (some old, { tiers with primary := (tiers.primary.insert key value).2 }, world) := by
  obtain ⟨outcome, -⟩ := PrimaryTier.insert_of_present present value
  simp only [insertPrimary, outcome]

theorem insertPrimary_fst {tiers : Tiers Key Value}
    (fits : tiers.primary.toList.length ≤ tiers.primary.capacity) (host : Host World Key Value)
    (instant : Instant) (key : Key) (value : Value) (world : World) :
    (insertPrimary host instant key value tiers world).1 = tiers.primary.peek? key := by
  rw [PrimaryTier.peek?_eq]
  cases found : Bindings.find? key tiers.primary.toList with
  | none => rw [insertPrimary_absent fits found]
  | some old => rw [insertPrimary_present found]

theorem insertPrimary_settles (keeps : host.Keeps holds) (instant : Instant) {key : Key} (value : Value)
    {tiers : Tiers Key Value} {world : World} (held : holds world)
    (fits : tiers.primary.toList.length ≤ tiers.primary.capacity)
    (softFits : tiers.soft.toList.length ≤ tiers.soft.capacity)
    (absent : Bindings.find? key tiers.primary.toList = none)
    (apart : ∀ other ∈ (tiers.primary.toList ++ [(key, value)]).map Prod.fst,
      other ∉ tiers.soft.toList.map Prod.fst) :
    Settles (StampedAt host holds instant) (tiers.primary.toList ++ [(key, value)]) tiers
      (insertPrimary host instant key value tiers world).2.1 := by
  obtain ⟨-, line⟩ := PrimaryTier.insert_absent fits absent value
  have surplus := (Line.rdrop_sublist (tiers.primary.toList ++ [(key, value)])
    tiers.primary.capacity).map Prod.fst
  rw [insertPrimary_absent fits absent]
  let inserted : Tiers Key Value := { tiers with primary := (tiers.primary.insert key value).2 }
  have differ := demoteAll_differ host instant
    ((tiers.primary.toList ++ [(key, value)]).rdrop tiers.primary.capacity) inserted world
  exact {
    pinned := differ.pinned
    cacheSize := by rw [differ.primary]; exact PrimaryTier.capacity_insert _ _ _
    order := by rw [differ.primary]; exact PrimaryTier.order_insert _ _ _
    softReferenceSize := differ.capacity
    ttl := differ.ttl
    primary := by rw [differ.primary]; exact line
    soft := demoteAll_line keeps instant (surplus.nodup (PrimaryTier.keysDistinct_concat absent)) held
      softFits fun other member => apart other (surplus.subset member) }

theorem setCacheSize_eq (host : Host World Key Value) (capacity : Nat) (tiers : Tiers Key Value)
    (world : World) :
    setCacheSize host capacity tiers world =
      demoteAll host (host.clock world) (tiers.primary.toList.rdrop capacity)
        { tiers with primary := (tiers.primary.setCapacity capacity).2 } world := by
  obtain ⟨surplus, -⟩ := tiers.primary.setCapacity_eq capacity
  rw [List.rdrop, ← surplus]
  rfl

/-- A new capacity settles the entries of the primary tier anew. -/
theorem setCacheSize_settles (keeps : host.Keeps holds) (capacity : Nat)
    {tiers : Tiers Key Value} {world : World} (held : holds world)
    (softFits : tiers.soft.toList.length ≤ tiers.soft.capacity)
    (apart : ∀ other ∈ tiers.primary.toList.map Prod.fst, other ∉ tiers.soft.toList.map Prod.fst) :
    Settles (StampedAt host holds (host.clock world)) tiers.primary.toList
      { tiers with primary := { tiers.primary with capacity } }
      (setCacheSize host capacity tiers world).1 := by
  obtain ⟨-, kept⟩ := tiers.primary.setCapacity_eq capacity
  let resized : Tiers Key Value := { tiers with primary := (tiers.primary.setCapacity capacity).2 }
  have differ := demoteAll_differ host (host.clock world) (tiers.primary.toList.rdrop capacity)
    resized world
  have included := (Line.rdrop_sublist tiers.primary.toList capacity).map Prod.fst
  rw [setCacheSize_eq]
  exact {
    pinned := differ.pinned
    cacheSize := by rw [differ.primary]; rfl
    order := by rw [differ.primary]; rfl
    softReferenceSize := differ.capacity
    ttl := differ.ttl
    primary := by rw [differ.primary]; exact kept
    soft := demoteAll_line keeps _ (included.nodup tiers.primary.keysDistinct) held softFits
      fun other member => apart other (included.subset member) }

end Tiers

end LayeredCache
