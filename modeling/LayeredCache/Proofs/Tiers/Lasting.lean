import LayeredCache.Proofs.Tiers.Admissions
import LayeredCache.Proofs.Tiers.SoftLine

/-! How long an entry of the soft tier lasts. As long as its key is left alone, it stays where it is until a purge finds it
dead, and then nothing is stored for the key; so the key shows the value while the entry lives, and nothing after. -/

set_option autoImplicit false

namespace LayeredCache

variable {World Key Value : Type}

/-- What is alive at an instant of an epoch was so at any earlier one. -/
theorem Stamped.isLive_earlier {ttl : Option Span} {epoch : Epoch} {earlier later : Instant} {stored : Stamped Value}
    (order : earlier ≤ later) (live : stored.isLive ttl ⟨later, epoch⟩ = true) :
    stored.isLive ttl ⟨earlier, epoch⟩ = true := by
  obtain ⟨same, young⟩ := isLive_iff.mp live
  refine isLive_iff.mpr ⟨same, ?_⟩
  intro lifetime given
  exact (Nat.sub_le_sub_right order _).trans_lt (young lifetime given)

variable [DecidableEq Key]

/-- An operation that may bring in a value for a key. -/
def Operation.supplies (key : Key) : Operation Key Value → Bool
  | .put other _ => other = key
  | .putAll _ _ => true
  | _ => false

/-- A deed leaves the entry of a key in the soft tier alone, or purges it, and brings in no other for the key. -/
structure Deed.Spares (done : Deed Key Value) (key : Key) : Prop where
  untaken : key ∈ done.before.softKeys → done.operation.disturbs key = false
  unsupplied : done.operation.supplies key = false
  undisplaced : Undisplaced key done.events

namespace Tiers

variable {host : Host World Key Value} {operation : Operation Key Value} {tiers start after : Tiers Key Value}
  {history : List (Deed Key Value)} {key : Key} {stored : Stamped Value} {instant earlier : Instant} {moment : Moment}
  {world : World}

/-- No tier stores a value for a key. -/
def Lacks (tiers : Tiers Key Value) (key : Key) : Prop := ∀ value, ¬tiers.Stores key value

/-- Nothing but a write brings in a value for a key. -/
theorem Lacks.operate (lacks : tiers.Lacks key) (valid : tiers.Valid) (unsupplied : operation.supplies key = false)
    (host : Host World Key Value) (world : World) : (Tiers.operate host operation tiers world).2.1.Lacks key := by
  intro value stores
  cases operation with
  | put written given =>
      rcases put_supersedes valid host written given world key value stores with ⟨same, -⟩ | ⟨-, before⟩
      · exact of_decide_eq_false unsupplied same.symm
      · exact lacks value before
  | get read => exact lacks value (get_storesNoMore valid host read world key value stores)
  | remove removed => exact lacks value (remove_stores host removed tiers world stores).2
  | pin pinned => exact lacks value (pin_storesNoMore host pinned tiers world key value stores)
  | unpin unpinned => exact lacks value (unpin_storesNoMore valid host unpinned world key value stores)
  | putAll => cases unsupplied
  | clear => exact clear_stores host tiers world stores
  | setCacheSize capacity => exact lacks value (setCacheSize_storesNoMore valid host capacity world key value stores)
  | setSoftReferenceSize capacity =>
      exact lacks value (setSoftReferenceSize_storesNoMore host capacity tiers world key value stores)
  | purgeSoft => exact lacks value (purgeSoft_storesNoMore host tiers world key value stores)

/-- What has become of a soft entry by an instant, if its key was left alone: it is where it was, or it was purged when
its lifetime was over and nothing has taken its place. -/
inductive Retains (tiers : Tiers Key Value) (key : Key) (stored : Stamped Value) (instant : Instant) : Prop where
  | stays (member : (key, stored) ∈ tiers.soft.toList)
  | purged (late : stored.isLive tiers.soft.ttl ⟨instant, stored.stamp.epoch⟩ = false) (lacks : tiers.Lacks key)

namespace Retains

theorem mono (retains : tiers.Retains key stored earlier) (order : earlier ≤ instant) :
    tiers.Retains key stored instant := by
  cases retains with
  | stays member => exact .stays member
  | purged late lacks =>
      refine .purged (Bool.eq_false_iff.mpr fun live => ?_) lacks
      exact Bool.eq_false_iff.mp late (Stamped.isLive_earlier order live)

/-- A key shows the value of an entry that was left alone as long as the entry lives. -/
theorem value?_eq (retains : tiers.Retains key stored moment.instant) (valid : tiers.Valid)
    (same : moment.epoch = stored.stamp.epoch) :
    tiers.value? moment key = if stored.isLive tiers.soft.ttl moment then some stored.value else none := by
  cases retains with
  | stays member =>
      have listed : key ∈ tiers.softKeys := List.mem_map_of_mem member
      have absent : tiers.primary.peek? key = none := by
        rw [PrimaryTier.peek?_eq]
        exact Bindings.find?_eq_none_iff.mpr fun primary => valid.primarySoft key primary listed
      rw [value?_of_unpinned (valid.softUnpinned key listed), absent, Option.none_or, SoftTier.peek?_eq,
        (Bindings.find?_eq_some_iff tiers.soft.keysDistinct).mpr member]
      rfl
  | purged late lacks =>
      rw [← same] at late
      rw [show stored.isLive tiers.soft.ttl moment = false from late, if_neg Bool.false_ne_true]
      refine Option.eq_none_iff_forall_ne_some.mpr fun value shown => lacks value ?_
      rcases valid.value?_eq_some_iff.mp shown with slot | member | live
      · exact .pinned slot
      · exact .primary member
      · obtain ⟨⟨_, kept⟩, listed, same⟩ := List.mem_map.mp live
        cases same
        exact .soft kept.stamp (List.mem_filter.mp listed).1

/-- A purge drops an entry only when it is dead. -/
theorem purgeSoft (retains : tiers.Retains key stored earlier) (valid : tiers.Valid) (host : Host World Key Value)
    (order : earlier ≤ host.clock world) (epoch : host.epoch world = stored.stamp.epoch) :
    (Tiers.purgeSoft host tiers world).2.1.Retains key stored (host.clock world) := by
  have left := purgeSoft_snd host tiers world
  obtain ⟨-, line⟩ := tiers.soft.purge_eq (host.moment world)
  cases retains.mono order with
  | purged late lacks =>
      have unsupplied : (Operation.purgeSoft : Operation Key Value).supplies key = false := rfl
      refine .purged ?_ (lacks.operate valid unsupplied host world)
      rw [left]
      exact late
  | stays member =>
      by_cases kept : (key, stored) ∈ (Tiers.purgeSoft host tiers world).2.1.soft.toList
      · exact .stays kept
      · rw [left] at kept ⊢
        have dead : tiers.soft.isLive (host.moment world) (key, stored) = false := by
          have whole := @List.takeWhile_append_dropWhile _ (fun entry => !tiers.soft.isLive (host.moment world) entry)
            tiers.soft.toList
          rw [← whole, ← line] at member
          have taken := (List.mem_append.mp member).resolve_right kept
          have passed := List.mem_takeWhile_imp taken
          rwa [Bool.not_eq_true'] at passed
        refine .purged ?_ ?_
        · rw [← epoch]
          exact dead
        · have listed : key ∈ tiers.softKeys := List.mem_map_of_mem member
          intro value stores
          cases stores with
          | pinned slot => cases (valid.softUnpinned key listed).symm.trans slot
          | primary other => exact valid.primarySoft key (List.mem_map_of_mem other) listed
          | soft stamp other =>
              have before : (key, Stamped.mk value stamp) ∈ tiers.soft.toList :=
                (List.dropWhile_sublist _).subset (line ▸ other)
              have same := ((Bindings.find?_eq_some_iff tiers.soft.keysDistinct).mpr before).symm.trans
                ((Bindings.find?_eq_some_iff tiers.soft.keysDistinct).mpr member)
              exact kept (Option.some.inj same ▸ other)

end Retains

/-- An operation that does not purge keeps what a key retains. -/
theorem Retains.operate (retains : tiers.Retains key stored instant) (valid : tiers.Valid)
    (elementary : operation.elementary = true) (other : operation ≠ .purgeSoft)
    (spares : (deed host operation tiers world).Spares key) :
    (Tiers.operate host operation tiers world).2.1.Retains key stored instant := by
  cases retains with
  | stays member =>
      obtain ⟨entered, left, handsOver⟩ := entrusts_operate valid host elementary other world
      have listed : key ∈ tiers.softKeys := List.mem_map_of_mem member
      exact .stays (handsOver.retained _ (left _ member (spares.untaken listed)) spares.undisplaced)
  | purged late lacks =>
      refine .purged ?_ (lacks.operate valid spares.unsupplied host world)
      rw [ttl_operate]
      exact late

/-- Deeds that do not purge keep what a key retains. -/
theorem Course.retains (course : Course start history after) (valid : start.Valid)
    (spares : ∀ done ∈ history, done.Spares key) (others : ∀ done ∈ history, done.operation ≠ .purgeSoft)
    (retains : start.Retains key stored instant) : after.Retains key stored instant := by
  induction course with
  | start => exact retains
  | @step World past tiers before host operation elementary world ih =>
      have kept := ih (fun done listed => spares done (List.mem_append_left _ listed))
        fun done listed => others done (List.mem_append_left _ listed)
      have last : Tiers.deed host operation tiers world ∈ past ++ [Tiers.deed host operation tiers world] :=
        List.mem_append_right _ (List.mem_singleton.mpr rfl)
      exact kept.operate (before.valid valid) elementary (others _ last) (spares _ last)

theorem copyDeeds_other (host : Host World Key Value) (replaceExisting : Bool) (entries : List (Entry Key Value))
    (tiers : Tiers Key Value) (world : World) :
    ∀ done ∈ copyDeeds host replaceExisting entries tiers world, done.operation ≠ .purgeSoft := by
  have pins (key : Key) (tiers : Tiers Key Value) (world : World) :
      (deed host (.pin key) tiers world).operation ≠ .purgeSoft := by
    intro same
    cases same
  have puts (entry : Entry Key Value) (tiers : Tiers Key Value) (world : World) :
      (deed host (.put entry.key entry.value) tiers world).operation ≠ .purgeSoft := by
    intro same
    cases same
  induction entries generalizing tiers world with
  | nil => exact List.forall_mem_nil _
  | cons entry rest ih =>
      refine List.forall_mem_append.mpr ⟨?_, ih _ _⟩
      rw [entryDeeds]
      split
      · exact List.forall_mem_nil _
      · split
        · exact List.forall_mem_cons.mpr ⟨pins _ _ _, List.forall_mem_singleton.mpr (puts _ _ _)⟩
        · exact List.forall_mem_singleton.mpr (puts _ _ _)

/-- Only a purge purges. -/
theorem deeds_other (other : operation ≠ .purgeSoft) (host : Host World Key Value) (tiers : Tiers Key Value)
    (world : World) : ∀ done ∈ deeds host operation tiers world, done.operation ≠ .purgeSoft := by
  cases operation with
  | putAll entries replaceExisting => exact copyDeeds_other host replaceExisting entries tiers world
  | _ => exact List.forall_mem_singleton.mpr other

/-- A writer keeps what a key retains, but for what it purges first. -/
theorem Retains.operateHeld (retains : tiers.Retains key stored earlier) (valid : tiers.Valid)
    (order : earlier ≤ host.clock world) (epoch : host.epoch world = stored.stamp.epoch)
    (spares : ∀ done ∈ deedsHeld host operation tiers world, done.Spares key) :
    (Tiers.operateHeld host operation tiers world).2.1.Retains key stored (host.clock world) := by
  have purged := retains.purgeSoft valid host order epoch
  have rest (other : operation ≠ .purgeSoft)
      (spares : ∀ done ∈ deeds host operation (Tiers.purgeSoft host tiers world).2.1
        (Tiers.purgeSoft host tiers world).2.2, done.Spares key) :
      (Tiers.operatePurged host operation tiers world).2.1.Retains key stored (host.clock world) := by
    have course := Course.operate host operation (Tiers.purgeSoft host tiers world).2.1
      (Tiers.purgeSoft host tiers world).2.2
    exact course.retains (valid.purgeSoft host world) spares (deeds_other other host _ _) purged
  cases operation with
  | purgeSoft => exact purged
  | _ => exact rest nofun fun done listed => spares done (List.mem_cons_of_mem _ listed)

theorem Course.ttl (course : Course start history after) : after.soft.ttl = start.soft.ttl := by
  induction course with
  | start => rfl
  | step _ host operation _ world ih => exact (ttl_operate host operation _ world).trans ih

/-- A purge is told of nothing but what it reclaims. -/
theorem reclaims_of_purge {happening : Happening World Key Value}
    (happened : happening ∈ (dialogue .purgeSoft tiers).happenings host world) :
    ∃ reclaimed, happening.event = .softReclaimed reclaimed := by
  have told := (told_eq host .purgeSoft tiers world).trans (logged_purgeSoft host tiers world)
  have listed := List.mem_map_of_mem (f := Happening.event) happened
  rw [told] at listed
  obtain ⟨entry, -, same⟩ := List.mem_map.mp listed
  exact ⟨entry.1, same.symm⟩

/-- Demotions come after the purge. -/
theorem demoted_after_purge {happening : Happening World Key Value}
    (happened : happening ∈ happenings host operation tiers world) {value : Value} {demotes : Bool}
    (demoted : happening.event = .primaryOverflow key value demotes) :
    operation ≠ .purgeSoft ∧
      happening ∈ (dialogue operation (Tiers.purgeSoft host tiers world).2.1).happenings host
        (Tiers.purgeSoft host tiers world).2.2 := by
  have purge (told : happening ∈ (dialogue .purgeSoft tiers).happenings host world) : False := by
    obtain ⟨reclaimed, same⟩ := reclaims_of_purge told
    cases same.symm.trans demoted
  have other : operation ≠ .purgeSoft := by
    rintro rfl
    exact purge happened
  rw [happenings_held other] at happened
  exact ⟨other, (List.mem_append.mp happened).resolve_left purge⟩

/-- An entry that a writer demotes and does not displace again is in the soft tier in the end, with the instant that was
read after the purge and the epoch that its callback left. -/
theorem admitted_operateHeld (valid : tiers.Valid) (elementary : operation.elementary = true)
    {happening : Happening World Key Value} (happened : happening ∈ happenings host operation tiers world) {value : Value}
    (demoted : happening.event = .primaryOverflow key value true)
    (undisplaced : Undisplaced key ((happenings host operation tiers world).map Happening.event)) :
    (key, ⟨value, operation.reading host (Tiers.purgeSoft host tiers world).2.2, host.epoch happening.after⟩) ∈
      (operateHeld host operation tiers world).2.1.soft.toList := by
  obtain ⟨other, later⟩ := demoted_after_purge happened demoted
  obtain ⟨entered, -, handsOver⟩ := entrusts_operate (valid.purgeSoft host world) host elementary other
    (Tiers.purgeSoft host tiers world).2.2
  rw [happenings_held other, List.map_append] at undisplaced
  have admitted := handsOver.admitted happening later demoted (undisplaced.subset (List.subset_append_right _ _))
  rcases operateHeld_cases host operation tiers world with ⟨purges, -⟩ | operates
  · exact absurd purges other
  · rw [operates]
    exact admitted

end Tiers

end LayeredCache
