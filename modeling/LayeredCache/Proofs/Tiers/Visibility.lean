import LayeredCache.Proofs.Tiers.Contents
import LayeredCache.Proofs.Tiers.Course
import LayeredCache.Proofs.Tiers.Lifetime
import LayeredCache.Proofs.Tiers.Record

/-! Keys that have no value to be seen. A key that is hidden stays hidden until it is written: whatever its dead entry
goes through, nothing that is not a write gives it a later stamp or another place. -/

set_option autoImplicit false

namespace LayeredCache

variable {World Key Value : Type} [DecidableEq Key]

namespace Tiers

variable {host : Host World Key Value} {tiers before between after : Tiers Key Value} {key other : Key}
  {value : Value} {moment later : Moment} {world : World}

/-- A key that shows no value at a moment, nor ever after if nothing happens. -/
structure Hides (tiers : Tiers Key Value) (moment : Moment) (key : Key) : Prop where
  pinned : ∀ value, tiers.pinned.slot? key ≠ some (some value)
  primary : key ∉ tiers.primaryKeys
  soft : ∀ stored, (key, stored) ∈ tiers.soft.toList →
    ∀ later, moment.Before later → stored.isLive tiers.soft.ttl later = false

theorem Hides.mono (hides : tiers.Hides moment key) (order : moment.Before later) : tiers.Hides later key :=
  ⟨hides.pinned, hides.primary, fun stored member last after => hides.soft stored member last (order.trans after)⟩

theorem Hides.primary_eq_none (hides : tiers.Hides moment key) : tiers.primary.peek? key = none := by
  rw [PrimaryTier.peek?_eq]
  exact Bindings.find?_eq_none_iff.mpr hides.primary

theorem Hides.soft_eq_none (hides : tiers.Hides moment key) (order : moment.Before later) :
    tiers.soft.peek? later key = none := by
  refine Option.eq_none_iff_forall_ne_some.mpr fun value live => ?_
  obtain ⟨stamp, shown⟩ := SoftTier.peek?_eq_some_iff.mp live
  obtain ⟨member, alive⟩ := List.mem_filter.mp shown
  have dead := hides.soft _ member later order
  rw [SoftTier.isLive, dead] at alive
  cases alive

theorem Hides.containsKey_eq_false (hides : tiers.Hides moment key) (order : moment.Before later) :
    tiers.containsKey later key = false := by
  have pinned : tiers.pinned.value? key = none := by
    cases slot : tiers.pinned.slot? key with
    | none => rw [PinnedTier.value?, slot]; rfl
    | some held =>
        cases held with
        | none => rw [PinnedTier.value?, slot]; rfl
        | some value => exact absurd slot (hides.pinned value)
  have primary : tiers.primary.contains key = false := by
    rw [PrimaryTier.contains, KeyedQueue.contains_eq]
    exact Option.isSome_eq_false_iff.mpr
      (Option.isNone_iff_eq_none.mpr (Bindings.find?_eq_none_iff.mpr hides.primary))
  rw [containsKey, pinned, primary, SoftTier.contains, hides.soft_eq_none order]
  rfl

/-- Where stamps are in the past, what cannot be seen is hidden: no moment brings a dead entry back. -/
theorem hides_of_containsKey (aged : Aged moment tiers.soft.toList)
    (unseen : tiers.containsKey moment key = false) : tiers.Hides moment key := by
  rw [containsKey, Bool.or_eq_false_iff, Bool.or_eq_false_iff] at unseen
  obtain ⟨⟨pinned, primary⟩, soft⟩ := unseen
  constructor
  · intro value slot
    rw [PinnedTier.value?, slot] at pinned
    cases pinned
  · rw [PrimaryTier.contains, KeyedQueue.contains_eq] at primary
    exact Bindings.find?_eq_none_iff.mp (Option.isNone_iff_eq_none.mp (Option.isSome_eq_false_iff.mp primary))
  · intro stored member later order
    have unlit : tiers.soft.peek? moment key = none :=
      Option.isNone_iff_eq_none.mp (Option.isSome_eq_false_iff.mp soft)
    cases live : stored.isLive tiers.soft.ttl later with
    | false => rfl
    | true =>
        have alive := Stamped.isLive_of_later (aged.past _ member) order live
        have shown : tiers.soft.peek? moment key = some stored.value :=
          SoftTier.peek?_eq_some_iff.mpr ⟨stored.stamp, List.mem_filter.mpr ⟨member, alive⟩⟩
        rw [unlit] at shown
        cases shown

/-- A key stays hidden that gains nothing in any tier. -/
theorem Hides.narrow (hides : tiers.Hides moment key)
    (pinned : ∀ value, after.pinned.slot? key = some (some value) → tiers.pinned.slot? key = some (some value))
    (primary : key ∈ after.primaryKeys → key ∈ tiers.primaryKeys)
    (soft : ∀ stored, (key, stored) ∈ after.soft.toList → (key, stored) ∈ tiers.soft.toList)
    (ttl : after.soft.ttl = tiers.soft.ttl) : after.Hides moment key where
  pinned value slot := hides.pinned value (pinned value slot)
  primary member := hides.primary (primary member)
  soft stored member := by
    rw [ttl]
    exact hides.soft stored (soft stored member)

theorem Hides.withoutSoft (hides : tiers.Hides moment key) (other : Key) :
    (tiers.withoutSoft other).Hides moment key := by
  refine hides.narrow (fun _ slot => slot) id ?_ rfl
  intro stored member
  rw [toList_withoutSoft] at member
  exact (Bindings.mem_erase.mp member).1

/-- A key that is not in a line is not brought in when the line settles. -/
theorem Hides.settle {stamps : Moment → Prop} {line : List (Key × Value)} (hides : tiers.Hides moment key)
    (settles : Settles stamps line tiers after) (absent : key ∉ line.map Prod.fst) : after.Hides moment key := by
  refine hides.narrow ?_ ?_ ?_ settles.ttl
  · intro value slot
    rw [← settles.pinned]
    exact slot
  · intro member
    rw [primaryKeys, settles.primary] at member
    exact absurd (((Line.rtake_sublist _ _).map Prod.fst).subset member) absent
  · intro stored member
    obtain ⟨demoted, surplus, -, kept⟩ := settles.soft
    rw [kept] at member
    rcases List.mem_append.mp ((Line.rtake_sublist _ _).subset member) with old | added
    · exact old
    · have dropped : (key, stored.value) ∈ demoted.map Stamped.unstamped := List.mem_map_of_mem added
      rw [surplus] at dropped
      exact absurd (List.mem_map_of_mem ((Line.rdrop_sublist _ _).subset dropped)) absent

theorem Hides.insertPrimary (hides : tiers.Hides moment key) (valid : tiers.Valid) (apart : other ≠ key)
    (softAbsent : other ∉ tiers.softKeys) (host : Host World Key Value) (instant : Instant) (value : Value)
    (world : World) : (Tiers.insertPrimary host instant other value tiers world).2.1.Hides moment key := by
  cases present : Bindings.find? other tiers.primary.toList with
  | none =>
      refine hides.settle
        (valid.settles_insertPrimary host.keeps_true instant value world trivial present softAbsent) ?_
      intro member
      rcases Valid.newLine_cases member with stored | same
      · exact hides.primary stored
      · exact apart same.symm
  | some old =>
      rw [insertPrimary_present present]
      refine hides.narrow (fun _ slot => slot) ?_ (fun _ member => member) rfl
      intro member
      obtain ⟨entry, stored, rfl⟩ := List.mem_map.mp member
      rcases PrimaryTier.mem_insert_present present value stored with rfl | ⟨-, kept⟩
      · exact absurd rfl apart
      · exact List.mem_map_of_mem kept

/-- A value that a key is pinned with shows that it was not hidden. -/
theorem Hides.pinned_as (hides : tiers.Hides moment key) {slot : Option Value} (shown : other = key → slot = none) :
    ({ tiers with pinned := tiers.pinned.pin other slot } : Tiers Key Value).Hides moment key := by
  refine hides.narrow ?_ id (fun _ member => member) rfl
  intro value filled
  rw [PinnedTier.slot?_pin] at filled
  split at filled
  next same =>
    rw [shown same.symm] at filled
    cases filled
  next => exact filled

theorem Hides.unpinned (hides : tiers.Hides moment key) (other : Key) :
    ({ tiers with pinned := (tiers.pinned.unpin other).2 } : Tiers Key Value).Hides moment key := by
  refine hides.narrow ?_ id (fun _ member => member) rfl
  intro value filled
  rw [PinnedTier.slot?_unpin] at filled
  split at filled
  · cases filled
  · exact filled

theorem Hides.get (hides : tiers.Hides moment key) (valid : tiers.Valid) (other : Key)
    (read : other = key → moment.Before (host.moment (host.record .getCall world))) :
    (Tiers.get host other tiers world).2.1.Hides moment key := by
  cases pinned : tiers.pinned.slot? other with
  | some slot =>
      rw [get_of_pinned pinned]
      exact hides
  | none =>
      cases present : tiers.primary.peek? other with
      | some value =>
          rw [get_of_primary pinned present]
          refine hides.narrow (fun _ slot => slot) ?_ (fun _ member => member) rfl
          intro member
          obtain ⟨entry, stored, rfl⟩ := List.mem_map.mp member
          exact List.mem_map_of_mem (PrimaryTier.mem_touch stored)
      | none =>
          cases live : tiers.soft.peek? (host.moment (host.record .getCall world)) other with
          | some value =>
              rw [get_of_soft pinned present live]
              refine (hides.withoutSoft other).insertPrimary (valid.withoutSoft other) ?_
                (Valid.absent_withoutSoft tiers other) host _ value _
              rintro rfl
              rw [hides.soft_eq_none (read rfl)] at live
              cases live
          | none =>
              rw [get_of_missing pinned present live]
              exact hides.withoutSoft other

theorem Hides.put (hides : tiers.Hides moment key) (valid : tiers.Valid) (apart : other ≠ key)
    (host : Host World Key Value) (value : Value) (world : World) :
    (Tiers.put host other value tiers world).2.1.Hides moment key := by
  cases pinned : tiers.pinned.slot? other with
  | some slot =>
      rw [put_of_pinned pinned]
      exact hides.pinned_as fun same => absurd same apart
  | none =>
      rw [put_of_unpinned pinned]
      exact (hides.withoutSoft other).insertPrimary (valid.withoutSoft other) apart
        (Valid.absent_withoutSoft tiers other) host _ value _

theorem Hides.remove (hides : tiers.Hides moment key) (host : Host World Key Value) (other : Key) (world : World) :
    (Tiers.remove host other tiers world).2.1.Hides moment key := by
  rw [remove_eq]
  refine ((hides.unpinned other).withoutSoft other).narrow (fun _ slot => slot) ?_ (fun _ member => member) rfl
  intro member
  rw [primaryKeys, (tiers.primary.remove_eq other).2] at member
  exact (Bindings.mem_keys_erase.mp member).1

theorem Hides.pin (hides : tiers.Hides moment key) (other : Key)
    (read : other = key → moment.Before (host.moment (host.record .pinCall world))) :
    (Tiers.pin host other tiers world).2.1.Hides moment key := by
  cases slot : tiers.pinned.slot? other with
  | some held =>
      rw [pin_of_pinned slot]
      exact hides
  | none =>
      cases present : tiers.primary.peek? other with
      | some value =>
          rw [pin_of_primary slot present]
          have apart : other ≠ key := by
            rintro rfl
            rw [hides.primary_eq_none] at present
            cases present
          refine (hides.pinned_as fun same => absurd same apart).narrow (fun _ slot => slot) ?_
            (fun _ member => member) rfl
          intro member
          rw [primaryKeys, (tiers.primary.remove_eq other).2] at member
          exact (Bindings.mem_keys_erase.mp member).1
      | none =>
          rw [pin_of_absent slot present]
          refine (hides.withoutSoft other).pinned_as ?_
          rintro rfl
          exact hides.soft_eq_none (read rfl)

theorem Hides.unpin (hides : tiers.Hides moment key) (valid : tiers.Valid) (host : Host World Key Value)
    (other : Key) (world : World) : (Tiers.unpin host other tiers world).2.1.Hides moment key := by
  cases slot : tiers.pinned.slot? other with
  | none =>
      rw [unpin_of_unpinned slot]
      exact hides
  | some held =>
      cases held with
      | none =>
          rw [unpin_of_empty slot]
          exact hides.unpinned other
      | some value =>
          rw [unpin_of_valued slot]
          refine (hides.unpinned other).insertPrimary (valid.unpinned other) ?_ (valid.softAbsent_of_pinned slot)
            host _ value _
          rintro rfl
          exact hides.pinned value slot

theorem Hides.putAll (hides : tiers.Hides moment key) (valid : tiers.Valid) (host : Host World Key Value)
    (replaceExisting : Bool) (entries : List (Entry Key Value)) (world : World)
    (spared : key ∉ (copied host replaceExisting entries tiers world).map Entry.key) :
    (Tiers.putAll host replaceExisting entries tiers world).1.Hides moment key := by
  induction entries generalizing tiers world with
  | nil => exact hides
  | cons entry rest ih =>
      have validAfter := valid.putEntry host replaceExisting entry world
      simp only [Tiers.putAll]
      simp only [copied] at spared
      split at spared
      next kept =>
        refine ih ?_ validAfter _ spared
        rw [putEntry, if_pos kept]
        exact hides
      next written =>
        rw [List.map_cons, List.mem_cons, not_or] at spared
        obtain ⟨apart, later⟩ := spared
        refine ih ?_ validAfter _ later
        rw [putEntry, if_neg written]
        split
        · refine (hides.pin entry.key ?_).put (valid.pin host entry.key world) (Ne.symm apart) host _ _
          exact fun same => absurd same.symm apart
        · exact hides.put valid (Ne.symm apart) host _ _

theorem Hides.setCacheSize (hides : tiers.Hides moment key) (valid : tiers.Valid) (host : Host World Key Value)
    (capacity : Nat) (world : World) : (Tiers.setCacheSize host capacity tiers world).1.Hides moment key := by
  have resized : ({ tiers with primary := { tiers.primary with capacity } } : Tiers Key Value).Hides moment key :=
    ⟨hides.pinned, hides.primary, hides.soft⟩
  exact resized.settle (valid.settles_setCacheSize host.keeps_true capacity world trivial) hides.primary

theorem Hides.setSoftReferenceSize (hides : tiers.Hides moment key) (host : Host World Key Value)
    (capacity : Nat) (world : World) :
    (Tiers.setSoftReferenceSize host capacity tiers world).1.Hides moment key := by
  refine hides.narrow (fun _ slot => slot) id ?_ rfl
  intro stored member
  have kept := (tiers.soft.setCapacity_eq capacity).2
  exact (List.drop_sublist _ _).subset (kept ▸ member)

theorem Hides.purgeSoft (hides : tiers.Hides moment key) (host : Host World Key Value) (world : World) :
    (Tiers.purgeSoft host tiers world).2.1.Hides moment key := by
  rw [purgeSoft_snd]
  refine hides.narrow (fun _ slot => slot) id ?_ rfl
  intro stored member
  rw [(tiers.soft.purge_eq (host.moment world)).2] at member
  exact (List.dropWhile_sublist _).subset member

theorem hides_clear (host : Host World Key Value) (tiers : Tiers Key Value) (moment : Moment) (key : Key)
    (world : World) : (clear host tiers world).1.Hides moment key :=
  ⟨nofun, nofun, nofun⟩

/-- The keys that an operation gives a value from outside. -/
def writtenKeys (host : Host World Key Value) (operation : Operation Key Value) (tiers : Tiers Key Value)
    (world : World) : List Key :=
  match operation with
  | .put key _ => [key]
  | .putAll entries replaceExisting => (copied host replaceExisting entries tiers world).map Entry.key
  | .get _ | .remove _ | .pin _ | .unpin _ | .clear | .setCacheSize _ | .setSoftReferenceSize _ | .purgeSoft => []

/-- A hidden key stays hidden that is not written, if the operation does not read an earlier moment. -/
theorem Hides.operate (hides : tiers.Hides moment key) (valid : tiers.Valid)
    (reads : ∀ recording, moment.Before (host.moment (host.record recording world)))
    {operation : Operation Key Value} (spared : key ∉ writtenKeys host operation tiers world) :
    (Tiers.operate host operation tiers world).2.1.Hides moment key := by
  cases operation with
  | put other value =>
      exact hides.put valid (fun same => spared (List.mem_singleton.mpr same.symm)) host value world
  | get other => exact hides.get valid other fun _ => reads .getCall
  | remove other => exact hides.remove host other world
  | pin other => exact hides.pin other fun _ => reads .pinCall
  | unpin other => exact hides.unpin valid host other world
  | putAll entries replaceExisting => exact hides.putAll valid host replaceExisting entries world spared
  | clear => exact hides_clear host tiers moment key world
  | setCacheSize capacity => exact hides.setCacheSize valid host capacity world
  | setSoftReferenceSize capacity => exact hides.setSoftReferenceSize host capacity world
  | purgeSoft => exact hides.purgeSoft host world

end Tiers

/-- The key of which an operation reports the value, or whether it has one. -/
def Operation.sought? : Operation Key Value → Option Key
  | .put key _ | .get key | .remove key | .pin key => some key
  | .unpin _ | .putAll _ _ | .clear | .setCacheSize _ | .setSoftReferenceSize _ | .purgeSoft => none

/-- An answer that reports no value. -/
def Answer.Empty : Answer Value → Prop
  | .value reported => reported = none
  | .flag found => found = false
  | .count _ | .done => False

namespace Tiers

variable {host : Host World Key Value} {tiers after : Tiers Key Value} {key : Key} {moment later : Moment}
  {world : World}

theorem Hides.slot_join (hides : tiers.Hides moment key) : (tiers.pinned.slot? key).join = none := by
  cases slot : tiers.pinned.slot? key with
  | none => rfl
  | some held =>
      cases held with
      | none => rfl
      | some value => exact absurd slot (hides.pinned value)

theorem Hides.put_fst (hides : tiers.Hides moment key) (valid : tiers.Valid)
    (read : moment.Before (host.moment (host.record .putCall world))) (value : Value) :
    (Tiers.put host key value tiers world).1 = none := by
  cases slot : tiers.pinned.slot? key with
  | some held =>
      rw [put_of_pinned slot]
      exact (congrArg Option.join slot).symm.trans hides.slot_join
  | none =>
      rw [put_of_unpinned slot]
      dsimp only
      rw [insertPrimary_fst (valid.withoutSoft key).primaryFits, hides.soft_eq_none read]
      exact (Option.or_none).trans hides.primary_eq_none

theorem Hides.get_fst (hides : tiers.Hides moment key)
    (read : moment.Before (host.moment (host.record .getCall world))) :
    (Tiers.get host key tiers world).1 = none := by
  cases slot : tiers.pinned.slot? key with
  | some held =>
      rw [get_of_pinned slot]
      exact (congrArg Option.join slot).symm.trans hides.slot_join
  | none => rw [get_of_missing slot hides.primary_eq_none (hides.soft_eq_none read)]

theorem Hides.remove_fst (hides : tiers.Hides moment key)
    (read : moment.Before (host.moment (host.record .removeCall world))) :
    (Tiers.remove host key tiers world).1 = none := by
  rw [remove_eq]
  dsimp only
  rw [hides.slot_join, hides.primary_eq_none, hides.soft_eq_none read]
  rfl

theorem Hides.pin_fst (hides : tiers.Hides moment key)
    (read : moment.Before (host.moment (host.record .pinCall world))) :
    (Tiers.pin host key tiers world).1 = false := by
  cases slot : tiers.pinned.slot? key with
  | some held =>
      have empty : held = none := (congrArg Option.join slot).symm.trans hides.slot_join
      rw [pin_of_pinned slot, empty]
      rfl
  | none =>
      rw [pin_of_absent slot hides.primary_eq_none]
      dsimp only
      rw [hides.soft_eq_none read]
      rfl

/-- Of a hidden key nothing is reported, not even as its former value. -/
theorem Hides.answer (hides : tiers.Hides moment key) (valid : tiers.Valid)
    (reads : ∀ recording, moment.Before (host.moment (host.record recording world)))
    {operation : Operation Key Value} (sought : operation.sought? = some key) :
    (Tiers.operate host operation tiers world).1.Empty := by
  cases operation with
  | put other value =>
      obtain rfl := Option.some.inj sought
      exact hides.put_fst valid (reads .putCall) value
  | get other =>
      obtain rfl := Option.some.inj sought
      exact hides.get_fst (reads .getCall)
  | remove other =>
      obtain rfl := Option.some.inj sought
      exact hides.remove_fst (reads .removeCall)
  | pin other =>
      obtain rfl := Option.some.inj sought
      exact hides.pin_fst (reads .pinCall)
  | unpin | putAll | clear | setCacheSize | setSoftReferenceSize | purgeSoft => cases sought

/-- A lookup does not find a hidden key. -/
theorem Hides.lookup (hides : tiers.Hides moment key) (order : moment.Before (host.moment world)) :
    (Tiers.lookup host key tiers world).1 = .miss := by
  have primary := hides.primary_eq_none
  have soft := hides.soft_eq_none order
  rw [Tiers.lookup]
  split
  next slot => exact absurd slot (hides.pinned _)
  next => rfl
  next =>
    rw [primary]
    dsimp only
    rw [SoftTier.contains, soft]
    rfl

variable {operation : Operation Key Value}

/-- The keys that an operation writes after a purge. -/
def writtenPurged (host : Host World Key Value) (operation : Operation Key Value) (tiers : Tiers Key Value)
    (world : World) : List Key :=
  let purged := purgeSoft host tiers world
  writtenKeys host operation purged.2.1 purged.2.2

theorem put_of_copied {replaceExisting : Bool} {entries : List (Entry Key Value)}
    (written : key ∈ (copied host replaceExisting entries tiers world).map Entry.key) :
    ∃ done ∈ copyDeeds host replaceExisting entries tiers world, ∃ value, done.operation = .put key value := by
  induction entries generalizing tiers world with
  | nil => cases written
  | cons entry rest ih =>
      rw [copyDeeds]
      simp only [copied] at written
      split at written
      next kept =>
        obtain ⟨done, listed, asked⟩ := ih written
        exact ⟨done, List.mem_append_right _ listed, asked⟩
      next given =>
        rcases List.mem_cons.mp written with rfl | later
        · have put : ∃ done ∈ entryDeeds host replaceExisting entry tiers world,
              ∃ value, done.operation = .put entry.key value := by
            rw [entryDeeds, if_neg given]
            split
            · exact ⟨_, List.mem_cons_of_mem _ List.mem_cons_self, _, rfl⟩
            · exact ⟨_, List.mem_cons_self, _, rfl⟩
          obtain ⟨done, listed, asked⟩ := put
          exact ⟨done, List.mem_append_left _ listed, asked⟩
        · obtain ⟨done, listed, asked⟩ := ih later
          exact ⟨done, List.mem_append_right _ listed, asked⟩

/-- Whatever a writer writes, one of its deeds puts. -/
theorem put_of_written (written : key ∈ writtenPurged host operation tiers world) :
    ∃ done ∈ deedsHeld host operation tiers world, ∃ value, done.operation = .put key value := by
  cases operation with
  | put other value =>
      obtain rfl := List.mem_singleton.mp written
      exact ⟨_, List.mem_cons_of_mem _ List.mem_cons_self, value, rfl⟩
  | putAll entries replaceExisting =>
      obtain ⟨done, listed, asked⟩ := put_of_copied written
      exact ⟨done, List.mem_cons_of_mem _ listed, asked⟩
  | get | remove | pin | unpin | clear | setCacheSize | setSoftReferenceSize | purgeSoft => cases written

theorem Hides.operatePurged (hides : tiers.Hides moment key) (valid : tiers.Valid)
    (reads : ∀ recording, moment.Before (host.moment (host.record recording (Tiers.purgeSoft host tiers world).2.2)))
    (spared : key ∉ writtenPurged host operation tiers world) :
    (Tiers.operatePurged host operation tiers world).2.1.Hides moment key :=
  (hides.purgeSoft host world).operate (valid.purgeSoft host world) reads spared

theorem Hides.answerPurged (hides : tiers.Hides moment key) (valid : tiers.Valid)
    (reads : ∀ recording, moment.Before (host.moment (host.record recording (Tiers.purgeSoft host tiers world).2.2)))
    (sought : operation.sought? = some key) : (Tiers.operatePurged host operation tiers world).1.Empty :=
  (hides.purgeSoft host world).answer (valid.purgeSoft host world) reads sought

theorem Hides.operateHeld (hides : tiers.Hides moment key) (valid : tiers.Valid)
    (reads : ∀ recording, moment.Before (host.moment (host.record recording (Tiers.purgeSoft host tiers world).2.2)))
    (spared : key ∉ writtenPurged host operation tiers world) :
    (Tiers.operateHeld host operation tiers world).2.1.Hides moment key := by
  rcases operateHeld_cases host operation tiers world with ⟨-, purges⟩ | operates
  · rw [purges]
    exact hides.purgeSoft host world
  · rw [operates]
    exact hides.operatePurged valid reads spared

theorem Hides.answerHeld (hides : tiers.Hides moment key) (valid : tiers.Valid)
    (reads : ∀ recording, moment.Before (host.moment (host.record recording (Tiers.purgeSoft host tiers world).2.2)))
    (sought : operation.sought? = some key) : (Tiers.operateHeld host operation tiers world).1.Empty := by
  rcases operateHeld_cases host operation tiers world with ⟨rfl, -⟩ | operates
  · cases sought
  · rw [operates]
    exact hides.answerPurged valid reads sought

/-! ### Runs in which a key is not written -/

omit [DecidableEq Key] in
theorem reads_of_forward (forward : host.Forward) (order : moment.Before (host.moment world))
    (recording : Metrics.Recording) : moment.Before (host.moment (host.record recording world)) :=
  order.trans (forward.record recording world)

theorem operate_forward (forward : host.Forward) (operation : Operation Key Value) (tiers : Tiers Key Value)
    (world : World) : (host.moment world).Before (host.moment (Tiers.operate host operation tiers world).2.2) :=
  (operate_simulates (Host.Moves.keeps forward Moment.Before.trans world).simulates operation tiers
    ⟨rfl, Moment.Before.refl _⟩).2.2.2

theorem lookup_forward (forward : host.Forward) (key : Key) (tiers : Tiers Key Value) (world : World) :
    (host.moment world).Before (host.moment (Tiers.lookup host key tiers world).2) :=
  (lookup_simulates (Host.Moves.keeps forward Moment.Before.trans world).simulates key tiers
    ⟨rfl, Moment.Before.refl _⟩).2.2

theorem purgeSoft_forward (forward : host.Forward) (tiers : Tiers Key Value) (world : World) :
    (host.moment world).Before (host.moment (Tiers.purgeSoft host tiers world).2.2) :=
  operate_forward forward .purgeSoft tiers world

theorem operatePurged_forward (forward : host.Forward) (operation : Operation Key Value) (tiers : Tiers Key Value)
    (world : World) :
    (host.moment world).Before (host.moment (Tiers.operatePurged host operation tiers world).2.2) :=
  (purgeSoft_forward forward tiers world).trans (operate_forward forward operation _ _)

theorem Hides.serve (hides : tiers.Hides (host.moment world) key) (valid : tiers.Valid) (forward : host.Forward)
    (spared : key ∉ writtenPurged host operation tiers world) :
    (Tiers.serve host operation tiers world).2.1.Hides
      (host.moment (Tiers.serve host operation tiers world).2.2) key := by
  have purged : ∀ {operation : Operation Key Value}, key ∉ writtenPurged host operation tiers world →
      (Tiers.operatePurged host operation tiers world).2.1.Hides
        (host.moment (Tiers.operatePurged host operation tiers world).2.2) key := by
    intro operation spared
    have reads := reads_of_forward forward (purgeSoft_forward forward tiers world)
    exact (hides.operatePurged valid reads spared).mono (operatePurged_forward forward operation tiers world)
  cases operation with
  | get other =>
      have looked := lookup_forward forward other tiers world
      rw [Tiers.serve]
      split
      next value after found =>
        rw [found] at looked
        exact hides.mono looked
      next after found =>
        rw [found] at looked
        exact hides.mono looked
      next after needed =>
        obtain ⟨-, rfl⟩ := Prod.mk.inj ((lookup_of_needsWrite (congrArg Prod.fst needed)).symm.trans needed)
        exact purged spared
  | purgeSoft => exact (hides.purgeSoft host world).mono (purgeSoft_forward forward tiers world)
  | put | remove | pin | unpin | putAll | clear | setCacheSize | setSoftReferenceSize => exact purged spared

theorem Hides.answerServed (hides : tiers.Hides (host.moment world) key) (valid : tiers.Valid)
    (forward : host.Forward) (sought : operation.sought? = some key) :
    (Tiers.serve host operation tiers world).1.Empty := by
  cases operation with
  | get other =>
      obtain rfl := Option.some.inj sought
      have missed := hides.lookup (Moment.Before.refl _)
      rw [Tiers.serve]
      split
      next value after found => rw [found] at missed; cases missed
      next => rfl
      next needed => rw [needed] at missed; cases missed
  | put | remove | pin =>
      exact hides.answerPurged valid (reads_of_forward forward (purgeSoft_forward forward tiers world)) sought
  | unpin | putAll | clear | setCacheSize | setSoftReferenceSize | purgeSoft => cases sought

/-- Where a run leads that does not write a key: operations, those that a writer serves, and time that only moves
forward, inside operations and between them. -/
inductive Unwritten (key : Key) (tiers : Tiers Key Value) (moment : Moment) : Tiers Key Value → Moment → Prop where
  | start : Unwritten key tiers moment tiers moment
  | later {after : Tiers Key Value} {now next : Moment} (run : Unwritten key tiers moment after now)
      (passed : now.Before next) : Unwritten key tiers moment after next
  | operated {World : Type} {host : Host World Key Value} {world : World} {after : Tiers Key Value}
      (run : Unwritten key tiers moment after (host.moment world)) (forward : host.Forward)
      (operation : Operation Key Value) (spared : key ∉ writtenKeys host operation after world) :
      Unwritten key tiers moment (operate host operation after world).2.1
        (host.moment (operate host operation after world).2.2)
  | served {World : Type} {host : Host World Key Value} {world : World} {after : Tiers Key Value}
      (run : Unwritten key tiers moment after (host.moment world)) (forward : host.Forward)
      (operation : Operation Key Value) (spared : key ∉ writtenPurged host operation after world) :
      Unwritten key tiers moment (serve host operation after world).2.1
        (host.moment (serve host operation after world).2.2)

theorem Unwritten.hides {now : Moment} (run : Unwritten key tiers moment after now) (valid : tiers.Valid)
    (hides : tiers.Hides moment key) : after.Valid ∧ after.Hides now key := by
  induction run with
  | start => exact ⟨valid, hides⟩
  | later run passed ih => exact ⟨ih.1, ih.2.mono passed⟩
  | @operated World host world after run forward operation spared ih =>
      obtain ⟨sound, hidden⟩ := ih
      have reads := reads_of_forward forward (Moment.Before.refl (host.moment world))
      refine ⟨sound.operate host operation world, ?_⟩
      exact (hidden.operate sound reads spared).mono (operate_forward forward operation after world)
  | @served World host world after run forward operation spared ih =>
      obtain ⟨sound, hidden⟩ := ih
      exact ⟨sound.serve host operation world, hidden.serve sound forward spared⟩

end Tiers

end LayeredCache
