import LayeredCache.Proofs.Tiers.Cascade
import LayeredCache.Proofs.Tiers.Operation

/-! Exact resizing. A smaller primary tier gives up its first entries; each joins the line of the soft tier in turn and
is announced, and behind it the entry for which that line had no room any more. What is given up and in which
order depends on the capacity arrived at only: a stop at a larger one on the way, at the same moment, leaves the same
tiers and the same world. -/

set_option autoImplicit false

namespace LayeredCache

variable {World Key Value : Type} [DecidableEq Key]

namespace PrimaryTier

theorem setCapacity_of_le (tier : PrimaryTier Key Value) {smaller larger : Nat} (within : smaller ≤ larger) :
    tier.setCapacity smaller =
      ((tier.setCapacity larger).1 ++ ((tier.setCapacity larger).2.setCapacity smaller).1,
        ((tier.setCapacity larger).2.setCapacity smaller).2) := by
  simp only [setCapacity]
  rw [tier.entries.drainSurplus_of_le within]

end PrimaryTier

namespace SoftTier

theorem setCapacity_of_le (tier : SoftTier Key Value) {smaller larger : Nat} (within : smaller ≤ larger) :
    tier.setCapacity smaller =
      ((tier.setCapacity larger).1 ++ ((tier.setCapacity larger).2.setCapacity smaller).1,
        ((tier.setCapacity larger).2.setCapacity smaller).2) := by
  simp only [setCapacity]
  rw [tier.entries.drainSurplus_of_le within, List.map_append]

end SoftTier

/-- What is told of an entry that the primary tier gives up, where the soft tier has so much room and stores a line:
that it is given up, and, if the line is full, that the oldest of the line makes room. -/
def Event.overflows (room : Nat) (stored : List (Key × Value)) (entry : Key × Value) : List (Event Key Value) :=
  .primaryOverflow entry.1 entry.2 (decide (0 < room)) ::
    if stored.length = room then stored.head?.toList.map fun oldest => .softOverflow oldest.1 oldest.2 else []

namespace Tiers

variable {host : Host World Key Value} {holds : World → Prop} {log : World → List (Event Key Value)}
  {tiers : Tiers Key Value} {world : World}

/-- The stored entries of the soft tier, the oldest first, without their stamps. -/
def softLine (tiers : Tiers Key Value) : List (Key × Value) := tiers.soft.toList.map Stamped.unstamped

theorem length_softLine (tiers : Tiers Key Value) : tiers.softLine.length = tiers.soft.toList.length :=
  List.length_map _

theorem demote_softLine (fits : tiers.soft.toList.length ≤ tiers.soft.capacity) {entry : Key × Value}
    (absent : entry.1 ∉ tiers.softKeys) (host : Host World Key Value) (instant : Instant) (world : World) :
    (demote host instant entry tiers world).1.softLine = (tiers.softLine ++ [entry]).rtake tiers.soft.capacity := by
  have held : (fun _ : World => True) world := trivial
  obtain ⟨stamp, -, line⟩ := demote_line host.keeps_true instant entry held fits absent
  rw [softLine, line, Line.map_rtake, List.map_append]
  rfl

theorem demote_overflows (logs : host.Logs holds log) (held : holds world)
    (fits : tiers.soft.toList.length ≤ tiers.soft.capacity) {entry : Key × Value} (absent : entry.1 ∉ tiers.softKeys)
    (instant : Instant) :
    log (demote host instant entry tiers world).2 =
      log world ++ Event.overflows tiers.soft.capacity tiers.softLine entry := by
  rw [Event.overflows, length_softLine]
  by_cases disabled : tiers.soft.capacity = 0
  · have nothing : tiers.soft.toList = [] := List.eq_nil_of_length_eq_zero (by omega)
    rw [demote_disabled disabled, softLine, nothing, disabled]
    exact overflowTold_log logs held false entry
  · have enabled := Nat.pos_of_ne_zero disabled
    rw [demote_log logs held enabled, decide_eq_true enabled]
    rcases SoftTier.accept_new fits absent enabled (host.admission instant world entry) entry.2 with
      ⟨room, accepted, -⟩ | ⟨oldest, rest, full, stored, accepted, -⟩
    · rw [accepted, if_neg (Nat.ne_of_lt room)]
      rfl
    · rw [accepted, if_pos full, softLine, stored]
      rfl

/-- Entries demoted in a row are told of one by one, each against the line that those before it have left. -/
theorem demoteAll_overflows (logs : host.Logs holds log) (held : holds world)
    (fits : tiers.soft.toList.length ≤ tiers.soft.capacity) {entries : List (Key × Value)}
    (distinct : (entries.map Prod.fst).Nodup) (apart : ∀ key ∈ entries.map Prod.fst, key ∉ tiers.softKeys)
    (instant : Instant) :
    log (demoteAll host instant entries tiers world).2 =
      log world ++ entries.zipIdx.flatMap fun entry =>
        Event.overflows tiers.soft.capacity ((tiers.softLine ++ entries.take entry.2).rtake tiers.soft.capacity)
          entry.1 := by
  induction entries generalizing tiers world with
  | nil => exact (List.append_nil _).symm
  | cons entry rest ih =>
      have absent := apart entry.1 (by simp)
      obtain ⟨fitsAfter, apartAfter⟩ := demote_prepares host instant distinct world fits apart
      have told := demote_overflows logs held fits absent instant
      have heldAfter := (demote_simulates logs.keeps.simulates instant entry tiers ⟨rfl, held⟩).2.2
      have later := ih heldAfter fitsAfter (List.nodup_cons.mp distinct).2 apartAfter
      have present : (tiers.softLine ++ []).rtake tiers.soft.capacity = tiers.softLine := by
        rw [List.append_nil, Line.rtake_of_fits (by rw [length_softLine]; exact fits)]
      rw [demoteAll, later, told, (demote_differ host instant entry tiers world).capacity,
        demote_softLine fits absent, List.append_assoc, List.zipIdx_cons', List.flatMap_cons, List.take_zero, present]
      congr 2
      rw [List.flatMap_map]
      apply List.flatMap_congr
      rintro ⟨other, place⟩ -
      simp only [Prod.map_apply, id_eq, List.take_succ_cons, Line.rtake_rtake_append, List.append_assoc,
        List.singleton_append]

theorem demoteAll_append (host : Host World Key Value) (instant : Instant) (first second : List (Key × Value))
    (tiers : Tiers Key Value) (world : World) :
    demoteAll host instant (first ++ second) tiers world =
      demoteAll host instant second (demoteAll host instant first tiers world).1
        (demoteAll host instant first tiers world).2 := by
  induction first generalizing tiers world with
  | nil => rfl
  | cons entry rest ih => exact ih _ _

/-- Demotions neither consult nor change the primary tier. -/
theorem demoteAll_beside (host : Host World Key Value) (instant : Instant) (entries : List (Key × Value))
    (tiers : Tiers Key Value) (primary : PrimaryTier Key Value) (world : World) :
    demoteAll host instant entries { tiers with primary } world =
      ({ (demoteAll host instant entries tiers world).1 with primary },
        (demoteAll host instant entries tiers world).2) := by
  induction entries generalizing tiers world with
  | nil => rfl
  | cons entry rest ih =>
      have once : demote host instant entry { tiers with primary } world =
          ({ (demote host instant entry tiers world).1 with primary }, (demote host instant entry tiers world).2) := by
        by_cases disabled : tiers.soft.capacity = 0
        · have beside : ({ tiers with primary } : Tiers Key Value).soft.capacity = 0 := disabled
          rw [demote_disabled disabled, demote_disabled beside]
        · have enabled := Nat.pos_of_ne_zero disabled
          have beside : 0 < ({ tiers with primary } : Tiers Key Value).soft.capacity := enabled
          rw [demote_enabled enabled, demote_enabled beside]
      rw [demoteAll, demoteAll, once]
      exact ih _ _

/-- As long as the clock stands, a smaller primary tier is the same whether or not it was a larger one before. -/
theorem setCacheSize_of_le {smaller larger : Nat} (within : smaller ≤ larger)
    (still : host.clock (setCacheSize host larger tiers world).2 = host.clock world) :
    setCacheSize host smaller (setCacheSize host larger tiers world).1 (setCacheSize host larger tiers world).2 =
      setCacheSize host smaller tiers world := by
  let resized : Tiers Key Value := { tiers with primary := (tiers.primary.setCapacity larger).2 }
  have between : setCacheSize host larger tiers world =
      demoteAll host (host.clock world) (tiers.primary.setCapacity larger).1 resized world := rfl
  have primary : (setCacheSize host larger tiers world).1.primary = resized.primary := by
    rw [between]
    exact (demoteAll_differ _ _ _ _ _).primary
  have last : setCacheSize host smaller tiers world =
      demoteAll host (host.clock world)
        ((tiers.primary.setCapacity larger).1 ++ (resized.primary.setCapacity smaller).1)
        { tiers with primary := (resized.primary.setCapacity smaller).2 } world := by
    rw [setCacheSize, tiers.primary.setCapacity_of_le within]
  rw [last, demoteAll_append]
  have beside := demoteAll_beside host (host.clock world) (tiers.primary.setCapacity larger).1 resized
    (resized.primary.setCapacity smaller).2 world
  rw [show ({ tiers with primary := (resized.primary.setCapacity smaller).2 } : Tiers Key Value) =
    { resized with primary := (resized.primary.setCapacity smaller).2 } from rfl, beside, ← between, ← still, ← primary]
  rfl

theorem setSoftReferenceSize_of_le {smaller larger : Nat} (within : smaller ≤ larger)
    (host : Host World Key Value) (tiers : Tiers Key Value) (world : World) :
    setSoftReferenceSize host smaller (setSoftReferenceSize host larger tiers world).1
        (setSoftReferenceSize host larger tiers world).2 =
      setSoftReferenceSize host smaller tiers world := by
  simp only [setSoftReferenceSize]
  rw [tiers.soft.setCapacity_of_le within, List.foldl_append]

/-- A new capacity of the primary tier makes its first entries give way, as many as are too many. They follow the
stored entries of the soft tier, and each is told of against the line that those before it have left there. -/
structure Resized (stamps : Moment → Prop) (log : World → List (Event Key Value)) (capacity : Nat)
    (before after : Tiers Key Value × World) : Prop where
  settles : Settles stamps before.1.primary.toList
    { before.1 with primary := { before.1.primary with capacity } } after.1
  told : log after.2 = log before.2 ++ (before.1.primary.toList.rdrop capacity).zipIdx.flatMap fun entry =>
    Event.overflows before.1.softReferenceSize
      ((before.1.softLine ++ (before.1.primary.toList.rdrop capacity).take entry.2).rtake before.1.softReferenceSize)
      entry.1

/-- A new capacity of the soft tier makes its first entries leave, as many as are too many. -/
structure Narrowed (log : World → List (Event Key Value)) (capacity : Nat) (before after : Tiers Key Value × World) :
    Prop where
  pinned : after.1.pinned = before.1.pinned
  primary : after.1.primary = before.1.primary
  softReferenceSize : after.1.softReferenceSize = capacity
  ttl : after.1.soft.ttl = before.1.soft.ttl
  soft : after.1.soft.toList = before.1.soft.toList.rtake capacity
  told : log after.2 = log before.2 ++ (before.1.softLine.rdrop capacity).map fun entry => .softOverflow entry.1 entry.2

theorem setCacheSize_resized (valid : tiers.Valid) (logs : host.Logs holds log) (held : holds world)
    (capacity : Nat) :
    Resized (StampedAt host holds (host.clock world)) log capacity (tiers, world)
      (setCacheSize host capacity tiers world) := by
  refine ⟨valid.settles_setCacheSize logs.keeps capacity world held, ?_⟩
  have included : ((tiers.primary.toList.rdrop capacity).map Prod.fst).Sublist tiers.primaryKeys :=
    (Line.rdrop_sublist tiers.primary.toList capacity).map Prod.fst
  let resized : Tiers Key Value := { tiers with primary := (tiers.primary.setCapacity capacity).2 }
  have fits : resized.soft.toList.length ≤ resized.soft.capacity := valid.softFits
  rw [setCacheSize_eq]
  exact demoteAll_overflows logs held fits (included.nodup tiers.primary.keysDistinct)
    (fun key member => valid.primarySoft key (included.subset member)) (host.clock world)

theorem setSoftReferenceSize_narrowed (logs : host.Logs holds log) (held : holds world) (capacity : Nat)
    (tiers : Tiers Key Value) :
    Narrowed log capacity (tiers, world) (setSoftReferenceSize host capacity tiers world) := by
  obtain ⟨dropped, kept⟩ := tiers.soft.setCapacity_eq capacity
  refine ⟨rfl, rfl, rfl, rfl, kept, ?_⟩
  have told := setSoftReferenceSize_log logs held capacity tiers
  rw [dropped] at told
  rw [told, softLine, ← Line.map_rdrop]
  rfl

/-- What gives way to a new capacity, what is kept, in which order, and what is told of it; and that a larger capacity
in between, taken while the clock stands, makes no difference to the tiers nor to the world, with all that it was told
and has counted. -/
theorem resizing_is_exact_and_path_independent (reachable : tiers.Reachable) (logs : host.Logs holds log)
    (held : holds world) (capacity : Nat) :
    Resized (StampedAt host holds (host.clock world)) log capacity (tiers, world)
      (setCacheSize host capacity tiers world) ∧
    Narrowed log capacity (tiers, world) (setSoftReferenceSize host capacity tiers world) ∧
    ∀ larger ≥ capacity,
      (host.clock (setCacheSize host larger tiers world).2 = host.clock world →
        setCacheSize host capacity (setCacheSize host larger tiers world).1 (setCacheSize host larger tiers world).2 =
          setCacheSize host capacity tiers world) ∧
      setSoftReferenceSize host capacity (setSoftReferenceSize host larger tiers world).1
          (setSoftReferenceSize host larger tiers world).2 =
        setSoftReferenceSize host capacity tiers world :=
  ⟨setCacheSize_resized reachable.valid logs held capacity, setSoftReferenceSize_narrowed logs held capacity tiers,
    fun _ within => ⟨setCacheSize_of_le within, setSoftReferenceSize_of_le within host tiers world⟩⟩

/-- Of two entries that are one after the other given up for a soft tier with one place, the first leaves it again. -/
theorem surplus_passes_through_one_place :
    ∃ (tiers : Tiers Nat Nat) (ledger : Ledger Nat Nat),
      tiers.primary.toList = [(1, 10), (2, 20), (3, 30)] ∧
      (setCacheSize .ledger 1 tiers ledger).1.primary.toList = [(3, 30)] ∧
      (setCacheSize .ledger 1 tiers ledger).2.events =
        [.primaryOverflow 1 10 true, .primaryOverflow 2 20 true, .softOverflow 1 10] ∧
      setCacheSize .ledger 1 (setCacheSize .ledger 2 tiers ledger).1 (setCacheSize .ledger 2 tiers ledger).2 =
        setCacheSize .ledger 1 tiers ledger := by
  obtain ⟨tiers, reachable, primary, soft, room⟩ : ∃ tiers : Tiers Nat Nat, tiers.Reachable ∧
      tiers.primary.toList = [(1, 10), (2, 20), (3, 30)] ∧ tiers.softLine = [] ∧ tiers.softReferenceSize = 1 :=
    ⟨_, (Reachable.fresh .lru 3 1 none).foldl .ledger (.start ⟨0, 0⟩) [.put 1 10, .put 2 20, .put 3 30],
      by decide +kernel, by decide +kernel, by decide +kernel⟩
  obtain ⟨shrunk, -, paths⟩ :=
    resizing_is_exact_and_path_independent reachable (Ledger.logs ⟨0, 0⟩) (rfl : (Ledger.start ⟨0, 0⟩).moment = _) 1
  have kept := shrunk.settles.primary
  have told := shrunk.told
  have still := (setCacheSize_simulates (Ledger.keeps_moment ⟨0, 0⟩).simulates 2 tiers
    (⟨rfl, rfl⟩ : Ledger.start ⟨0, 0⟩ = Ledger.start ⟨0, 0⟩ ∧ _)).2.2
  simp only [primary] at kept told
  rw [soft, room] at told
  exact ⟨tiers, .start ⟨0, 0⟩, primary, kept, told, (paths 2 (by decide)).1 (congrArg Moment.instant still)⟩

end Tiers

end LayeredCache
