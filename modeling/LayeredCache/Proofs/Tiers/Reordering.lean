import LayeredCache.Proofs.Metrics.Totals
import LayeredCache.Proofs.Tiers.Copies
import Mathlib.Data.List.Nodup

/-! Copying entries whose pinned ones come in no particular order. Entries that are pinned at their source go to the pinned
tier and push nothing out, so that in whichever order they come, the tiers end up with the same contents and the same is
counted. From there on the other entries, which do have an order, are taken in alike. -/

set_option autoImplicit false

namespace LayeredCache

open Metrics (Recording congruent_of_perm)

variable {World Key Value : Type}

/-- A host for whom counting is only that: it takes no time, and the order of the counts does not matter. -/
structure Host.Counts (host : Host World Key Value) : Prop where
  moment : ∀ recording world, host.moment (host.record recording world) = host.moment world
  commutes : ∀ first second world,
    host.record first (host.record second world) = host.record second (host.record first world)

theorem Metrics.Tally.record_comm (tally : Metrics.Tally) (first second : Recording) :
    (tally.record first).record second = (tally.record second).record first :=
  recordAll_congr (congruent_of_perm (List.Perm.swap second first [])) tally

theorem Host.counts_ledger : (Host.ledger : Host (Ledger Key Value) Key Value).Counts where
  moment _ _ := rfl
  commutes first second ledger :=
    congrArg (fun tally => { ledger with tally }) (Metrics.Tally.record_comm ledger.tally second first)

def Host.recordAll (host : Host World Key Value) (recordings : List Recording) (world : World) : World :=
  recordings.foldl (fun world recording => host.record recording world) world

theorem Host.recordAll_append (host : Host World Key Value) (some others : List Recording) (world : World) :
    host.recordAll (some ++ others) world = host.recordAll others (host.recordAll some world) :=
  List.foldl_append

namespace Host.Counts

variable {host : Host World Key Value} {some others : List Recording}

theorem recordAll_perm (counts : host.Counts) (same : some.Perm others) (world : World) :
    host.recordAll some world = host.recordAll others world :=
  same.foldl_eq' (fun _ _ _ _ _ => counts.commutes _ _ _) world

theorem moment_recordAll (counts : host.Counts) (recordings : List Recording) (world : World) :
    host.moment (host.recordAll recordings world) = host.moment world := by
  induction recordings generalizing world with
  | nil => rfl
  | cons recording rest ih => exact (ih _).trans (counts.moment recording world)

end Host.Counts

variable [DecidableEq Key]

namespace Tiers

variable {host : Host World Key Value} {left right third tiers : Tiers Key Value} {entry : Entry Key Value}
  {entries : List (Entry Key Value)} {replaceExisting : Bool} {key : Key} {moment : Moment} {world : World}

/-! ### The same contents -/

/-- Tiers with the same contents, which may only list their pins in different orders. -/
structure SameContents (left right : Tiers Key Value) : Prop where
  slot? : ∀ key, left.pinned.slot? key = right.pinned.slot? key
  primary : left.primary.toList = right.primary.toList
  cacheSize : left.primary.capacity = right.primary.capacity
  order : left.primary.order = right.primary.order
  soft : left.soft.toList = right.soft.toList
  softReferenceSize : left.soft.capacity = right.soft.capacity
  ttl : left.soft.ttl = right.soft.ttl

theorem SameContents.refl (tiers : Tiers Key Value) : SameContents tiers tiers :=
  ⟨fun _ => rfl, rfl, rfl, rfl, rfl, rfl, rfl⟩

theorem SameContents.peek? (same : SameContents left right) (key : Key) :
    left.primary.peek? key = right.primary.peek? key := by
  rw [PrimaryTier.peek?_eq, PrimaryTier.peek?_eq, same.primary]

theorem SameContents.softPeek? (same : SameContents left right) (moment : Moment) (key : Key) :
    left.soft.peek? moment key = right.soft.peek? moment key := by
  rw [SoftTier.peek?_eq, SoftTier.peek?_eq, same.soft, same.ttl]

theorem SameContents.value? (same : SameContents left right) (moment : Moment) (key : Key) :
    left.value? moment key = right.value? moment key := by
  rw [Tiers.value?, Tiers.value?, PinnedTier.value?, PinnedTier.value?, same.slot?, same.peek?, same.softPeek?]

theorem SameContents.withoutSoft (same : SameContents left right) (key : Key) :
    SameContents (left.withoutSoft key) (right.withoutSoft key) :=
  { same with soft := by rw [toList_withoutSoft, toList_withoutSoft, same.soft] }

/-- The same contents in the same world. -/
def Coincide (left right : Tiers Key Value × World) : Prop := left.1.SameContents right.1 ∧ left.2 = right.2

end Tiers

/-- Primary tiers that list the same entries give up the same one for a new entry. -/
theorem PrimaryTier.insert_congr {left right : PrimaryTier Key Value} (line : left.toList = right.toList)
    (capacity : left.capacity = right.capacity) (order : left.order = right.order) (key : Key) (value : Value) :
    (left.insert key value).1 = (right.insert key value).1 ∧
      (left.insert key value).2.toList = (right.insert key value).2.toList := by
  cases found : Bindings.find? key right.toList with
  | some old =>
      obtain ⟨outcome, after⟩ := insert_present found value
      rw [← line] at found
      obtain ⟨same, also⟩ := insert_present found value
      rw [outcome, after, same, also, line, order]
      exact ⟨rfl, rfl⟩
  | none =>
      have absent := found
      rw [← line] at absent
      by_cases disabled : right.capacity = 0
      · rw [insert_of_capacity_zero found disabled, insert_of_capacity_zero absent (capacity.trans disabled)]
        exact ⟨rfl, line⟩
      · obtain ⟨outcome, after⟩ := insert_of_absent found disabled value
        obtain ⟨same, also⟩ := insert_of_absent absent (capacity ▸ disabled) value
        rw [outcome, after, same, also, line, capacity]
        exact ⟨rfl, rfl⟩

theorem SoftTier.accept_congr {left right : SoftTier Key Value} (line : left.toList = right.toList)
    (capacity : left.capacity = right.capacity) (moment : Moment) (key : Key) (value : Value) :
    (left.accept moment key value).1 = (right.accept moment key value).1 ∧
      (left.accept moment key value).2.toList = (right.accept moment key value).2.toList := by
  by_cases disabled : right.capacity = 0
  · rw [accept_of_capacity_zero disabled, accept_of_capacity_zero (capacity.trans disabled)]
    exact ⟨rfl, line⟩
  · obtain ⟨outcome, after⟩ := accept_eq disabled moment key value
    obtain ⟨same, also⟩ := accept_eq (capacity ▸ disabled) moment key value
    rw [outcome, after, same, also, line, capacity]
    exact ⟨rfl, rfl⟩

namespace Tiers

variable {host : Host World Key Value} {left right third tiers : Tiers Key Value} {entry : Entry Key Value}
  {entries : List (Entry Key Value)} {replaceExisting : Bool} {key : Key} {moment : Moment} {world : World}

theorem demote_congr (same : SameContents left right) (host : Host World Key Value) (instant : Instant)
    (entry : Key × Value) (world : World) :
    Coincide (demote host instant entry left world) (demote host instant entry right world) := by
  by_cases disabled : right.soft.capacity = 0
  · rw [demote_disabled disabled, demote_disabled (same.softReferenceSize.trans disabled)]
    exact ⟨same, rfl⟩
  · have enabled := Nat.pos_of_ne_zero disabled
    have alike : 0 < left.soft.capacity := same.softReferenceSize ▸ enabled
    obtain ⟨dropped, line⟩ := SoftTier.accept_congr same.soft same.softReferenceSize
      ⟨instant, host.epoch (overflowTold host true entry world)⟩ entry.1 entry.2
    rw [demote_enabled enabled, demote_enabled alike]
    refine ⟨{ same with soft := line, softReferenceSize := ?_, ttl := ?_ }, ?_⟩
    · exact (SoftTier.capacity_accept _ _ _ _).trans (same.softReferenceSize.trans (SoftTier.capacity_accept _ _ _ _).symm)
    · exact (SoftTier.ttl_accept _ _ _ _).trans (same.ttl.trans (SoftTier.ttl_accept _ _ _ _).symm)
    · dsimp only
      rw [dropped]

theorem insertPrimary_congr (same : SameContents left right) (host : Host World Key Value) (instant : Instant)
    (key : Key) (value : Value) (world : World) :
    (insertPrimary host instant key value left world).1 = (insertPrimary host instant key value right world).1 ∧
      Coincide (insertPrimary host instant key value left world).2
        (insertPrimary host instant key value right world).2 := by
  obtain ⟨outcome, line⟩ := PrimaryTier.insert_congr same.primary same.cacheSize same.order key value
  have inserted : SameContents { left with primary := (left.primary.insert key value).2 }
      { right with primary := (right.primary.insert key value).2 } :=
    { same with
      primary := line
      cacheSize := by rw [PrimaryTier.capacity_insert, PrimaryTier.capacity_insert, same.cacheSize]
      order := by rw [PrimaryTier.order_insert, PrimaryTier.order_insert, same.order] }
  rw [insertPrimary, insertPrimary]
  dsimp only
  rw [outcome]
  split
  · exact ⟨rfl, inserted, rfl⟩
  next ejected _ => exact ⟨rfl, demote_congr inserted host instant ejected world⟩

theorem SameContents.withPin (same : SameContents left right) (key : Key) (slot : Option Value) :
    SameContents { left with pinned := left.pinned.pin key slot } { right with pinned := right.pinned.pin key slot } :=
  { same with
    slot? := by
      intro other
      rw [PinnedTier.slot?_pin, PinnedTier.slot?_pin, same.slot?] }

theorem put_congr (same : SameContents left right) (host : Host World Key Value) (key : Key) (value : Value)
    (world : World) : Coincide (put host key value left world).2 (put host key value right world).2 := by
  cases slot : right.pinned.slot? key with
  | some held =>
      rw [put_of_pinned slot, put_of_pinned ((same.slot? key).trans slot)]
      exact ⟨same.withPin key (some value), rfl⟩
  | none =>
      obtain ⟨previous, contents, counted⟩ := insertPrimary_congr (same.withoutSoft key) host
        (host.clock (host.record .putCall world)) key value (host.record .putCall world)
      rw [put_of_unpinned slot, put_of_unpinned ((same.slot? key).trans slot)]
      refine ⟨contents, ?_⟩
      dsimp only
      rw [previous, counted, same.softPeek?]

/-- Entries that no pin keeps out of the bounded tiers are taken in alike. -/
theorem putAll_congr (same : SameContents left right) (host : Host World Key Value) (replaceExisting : Bool)
    (unpinned : ∀ entry ∈ entries, entry.tier ≠ .pinned) (world : World) :
    Coincide (putAll host replaceExisting entries left world) (putAll host replaceExisting entries right world) := by
  induction entries generalizing left right world with
  | nil => exact ⟨same, rfl⟩
  | cons entry rest ih =>
      obtain ⟨own, others⟩ := List.forall_mem_cons.mp unpinned
      have passes : left.passesOver replaceExisting (host.moment world) entry =
          right.passesOver replaceExisting (host.moment world) entry := by
        rw [passesOver, passesOver, same.value?]
      have first : Coincide (putEntry host replaceExisting entry left world)
          (putEntry host replaceExisting entry right world) := by
        cases passed : right.passesOver replaceExisting (host.moment world) entry with
        | true =>
            rw [putEntry_of_passed rfl passed, putEntry_of_passed rfl (passes.trans passed)]
            exact ⟨same, rfl⟩
        | false =>
            rw [putEntry_of_copied rfl passed, putEntry_of_copied rfl (passes.trans passed), prepare, prepare,
              if_neg own, if_neg own]
            exact put_congr same host entry.key entry.value world
      obtain ⟨contents, counted⟩ := first
      rw [putAll, putAll]
      dsimp only
      rw [counted]
      exact ih contents others _

/-! ### Pinned entries -/

/-- Keys have been given their slots in the pinned tier, and are in no bounded tier any more. -/
structure Pins (slots : List (Key × Option Value)) (before after : Tiers Key Value) : Prop where
  slot? : ∀ key, after.pinned.slot? key = (Bindings.find? key slots).or (before.pinned.slot? key)
  primary : after.primary.toList = before.primary.toList.filter fun binding => binding.1 ∉ slots.map Prod.fst
  cacheSize : after.primary.capacity = before.primary.capacity
  order : after.primary.order = before.primary.order
  soft : after.soft.toList = before.soft.toList.filter fun binding => binding.1 ∉ slots.map Prod.fst
  softReferenceSize : after.soft.capacity = before.soft.capacity
  ttl : after.soft.ttl = before.soft.ttl

theorem Pins.nothing (tiers : Tiers Key Value) : Pins [] tiers tiers where
  slot? _ := rfl
  primary := (List.filter_eq_self.mpr fun _ _ => by simp).symm
  cacheSize := rfl
  order := rfl
  soft := (List.filter_eq_self.mpr fun _ _ => by simp).symm
  softReferenceSize := rfl
  ttl := rfl

theorem filter_apart_singleton {Item : Type} (key : Key) (line : List (Key × Item)) :
    line.filter (fun binding => binding.1 ∉ [key]) = Bindings.erase key line :=
  List.filter_congr fun binding _ => by simp

theorem filter_apart_cons {Item : Type} (key : Key) (keys : List Key) (line : List (Key × Item)) :
    (line.filter fun binding => binding.1 ∉ [key]).filter (fun binding => binding.1 ∉ keys) =
      line.filter fun binding => binding.1 ∉ key :: keys := by
  rw [List.filter_filter]
  refine List.filter_congr fun binding _ => ?_
  simp [Bool.and_comm]

theorem find?_singleton {Item : Type} (key other : Key) (item : Item) :
    Bindings.find? other [(key, item)] = if key = other then some item else none := rfl

theorem slot?_pin_or (tier : PinnedTier Key Value) (key other : Key) (slot : Option Value) :
    (tier.pin key slot).slot? other = (Bindings.find? other [(key, slot)]).or (tier.slot? other) := by
  rw [PinnedTier.slot?_pin, find?_singleton]
  by_cases same : key = other
  · rw [if_pos same.symm, if_pos same, Option.some_or]
  · rw [if_neg (Ne.symm same), if_neg same, Option.none_or]

theorem Pins.cons {slot : Option Value} {slots : List (Key × Option Value)} {between after : Tiers Key Value}
    (first : Pins [(key, slot)] tiers between) (rest : Pins slots between after) (apart : key ∉ slots.map Prod.fst) :
    Pins ((key, slot) :: slots) tiers after where
  slot? other := by
    have all : Bindings.find? other ((key, slot) :: slots) =
        if key = other then some slot else Bindings.find? other slots := rfl
    rw [rest.slot?, first.slot?, find?_singleton, all]
    by_cases same : key = other
    · rw [if_pos same, if_pos same, ← same, Bindings.find?_eq_none_iff.mpr apart, Option.none_or]
    · rw [if_neg same, if_neg same, Option.none_or]
  primary := by
    rw [rest.primary, first.primary]
    exact filter_apart_cons key (slots.map Prod.fst) tiers.primary.toList
  cacheSize := rest.cacheSize.trans first.cacheSize
  order := rest.order.trans first.order
  soft := by
    rw [rest.soft, first.soft]
    exact filter_apart_cons key (slots.map Prod.fst) tiers.soft.toList
  softReferenceSize := rest.softReferenceSize.trans first.softReferenceSize
  ttl := rest.ttl.trans first.ttl

/-- What is counted of an entry that is pinned and put, whose key showed a value or did not. -/
def copyRecordings (found : Bool) : List Recording :=
  .pinCall :: (if found then [.pinFound] else []) ++ [.putCall, .putPinned]

/-- A pin gives its key a slot with the value that it shows. -/
theorem pins_pin (valid : tiers.Valid) (here : host.moment (host.record .pinCall world) = moment) (key : Key) :
    Pins [(key, tiers.value? moment key)] tiers (pin host key tiers world).2.1 ∧
      (pin host key tiers world).2.2 =
        host.recordAll (.pinCall :: if (tiers.value? moment key).isSome then [.pinFound] else []) world := by
  have apart : ∀ {Item : Type} {line : List (Key × Item)}, key ∉ line.map Prod.fst →
      line = line.filter fun binding => binding.1 ∉ [key] :=
    fun absent => ((filter_apart_singleton key _).trans (Bindings.erase_eq_self absent)).symm
  cases slot : tiers.pinned.slot? key with
  | some stored =>
      have primaryAbsent : key ∉ tiers.primaryKeys := by
        intro member
        cases (valid.primaryUnpinned key member).symm.trans slot
      rw [pin_of_pinned slot, value?_of_pinned valid slot]
      refine ⟨⟨?_, apart primaryAbsent, rfl, rfl, apart (valid.softAbsent_of_pinned slot), rfl, rfl⟩, ?_⟩
      · intro other
        show tiers.pinned.slot? other = _
        rw [find?_singleton]
        by_cases same : key = other
        · rw [if_pos same, ← same, slot, Option.some_or]
        · rw [if_neg same, Option.none_or]
      · cases stored <;> rfl
  | none =>
      have own := value?_of_unpinned slot moment
      cases present : tiers.primary.peek? key with
      | some value =>
          rw [pin_of_primary slot present, own, present, Option.some_or]
          exact ⟨⟨fun other => slot?_pin_or tiers.pinned key other _,
            (tiers.primary.remove_eq key).2.trans (filter_apart_singleton key _).symm, rfl, rfl,
            apart (valid.softAbsent_of_peek present), rfl, rfl⟩, rfl⟩
      | none =>
          rw [pin_of_absent slot present, own, present, Option.none_or]
          dsimp only
          rw [here]
          rw [PrimaryTier.peek?_eq] at present
          refine ⟨⟨fun other => slot?_pin_or tiers.pinned key other _,
            apart (Bindings.find?_eq_none_iff.mp present), rfl, rfl,
            (toList_withoutSoft tiers key).trans (filter_apart_singleton key _).symm, rfl, rfl⟩, ?_⟩
          cases tiers.soft.peek? moment key <;> rfl

/-- An entry that was pinned at its source takes its place in the pinned tier. -/
theorem pins_putEntry (counts : host.Counts) (valid : tiers.Valid) (pinned : entry.tier = .pinned)
    (copied : tiers.passesOver replaceExisting (host.moment world) entry = false) :
    Pins [(entry.key, some entry.value)] tiers (putEntry host replaceExisting entry tiers world).1 ∧
      (putEntry host replaceExisting entry tiers world).2 =
        host.recordAll (copyRecordings (tiers.value? (host.moment world) entry.key).isSome) world := by
  obtain ⟨pins, counted⟩ := pins_pin valid (counts.moment .pinCall world) entry.key
  have filled := pins.slot? entry.key
  rw [find?_singleton, if_pos rfl, Option.some_or] at filled
  rw [putEntry_of_copied rfl copied, prepare, if_pos pinned]
  dsimp only
  rw [put_of_pinned filled]
  refine ⟨{ pins with slot? := ?_ }, ?_⟩
  · intro other
    rw [slot?_pin_or, pins.slot?, find?_singleton, find?_singleton]
    split
    · rfl
    · rfl
  · dsimp only
    rw [counted, copyRecordings, Host.recordAll_append]
    rfl

theorem Pins.value?_apart {slot : Option Value} {after : Tiers Key Value} (pins : Pins [(key, slot)] tiers after)
    {other : Key} (apart : other ≠ key) : after.value? moment other = tiers.value? moment other := by
  have primary := pins.primary.trans (filter_apart_singleton key tiers.primary.toList)
  have soft := pins.soft.trans (filter_apart_singleton key tiers.soft.toList)
  rw [value?, value?, PinnedTier.value?, PinnedTier.value?, pins.slot?, find?_singleton, if_neg (Ne.symm apart),
    Option.none_or, PrimaryTier.peek?_eq, PrimaryTier.peek?_eq, primary, Bindings.find?_erase, if_neg apart,
    SoftTier.peek?_eq, SoftTier.peek?_eq, soft, Bindings.find?_erase, if_neg apart, pins.ttl]

/-- What is counted while entries are copied that were pinned at their source. -/
def countedCopies (tiers : Tiers Key Value) (moment : Moment) (copied : List (Entry Key Value)) : List Recording :=
  copied.flatMap fun entry => copyRecordings (tiers.value? moment entry.key).isSome

/-- Entries that were pinned at their source all take their places in the pinned tier, but for those passed over. -/
theorem pins_putAll (counts : host.Counts) (valid : tiers.Valid) (pinned : ∀ entry ∈ entries, entry.tier = .pinned)
    (distinct : (entries.map Entry.key).Nodup) (replaceExisting : Bool) (here : host.moment world = moment) :
    let copied := entries.filter fun entry => !tiers.passesOver replaceExisting moment entry
    Pins (copied.map fun entry => (entry.key, some entry.value)) tiers
        (putAll host replaceExisting entries tiers world).1 ∧
      (putAll host replaceExisting entries tiers world).2 =
        host.recordAll (countedCopies tiers moment copied) world := by
  induction entries generalizing tiers world with
  | nil => exact ⟨.nothing tiers, rfl⟩
  | cons entry rest ih =>
      obtain ⟨own, others⟩ := List.forall_mem_cons.mp pinned
      obtain ⟨apart, distinctRest⟩ := List.nodup_cons.mp distinct
      intro copied
      cases passed : tiers.passesOver replaceExisting moment entry with
      | true =>
          have skipped : copied = rest.filter fun entry => !tiers.passesOver replaceExisting moment entry :=
            List.filter_cons_of_neg (by simp [passed])
          rw [skipped, putAll, putEntry_of_passed here passed]
          exact ih valid others distinctRest here
      | false =>
          subst here
          obtain ⟨pins, counted⟩ := pins_putEntry counts valid own passed
          have hereAfter : host.moment (putEntry host replaceExisting entry tiers world).2 = host.moment world := by
            rw [counted, counts.moment_recordAll]
          -- the entries that follow find their keys as they would have at once
          have shows : ∀ other ∈ rest, (putEntry host replaceExisting entry tiers world).1.value? (host.moment world)
              other.key = tiers.value? (host.moment world) other.key :=
            fun other listed => pins.value?_apart fun same => apart (same ▸ List.mem_map_of_mem listed)
          have passes : (rest.filter fun other => !passesOver replaceExisting (host.moment world) other
                (putEntry host replaceExisting entry tiers world).1) =
              rest.filter fun other => !tiers.passesOver replaceExisting (host.moment world) other :=
            List.filter_congr fun other listed => by rw [passesOver, passesOver, shows other listed]
          have taken : copied = entry ::
              rest.filter fun other => !tiers.passesOver replaceExisting (host.moment world) other :=
            List.filter_cons_of_pos (by simp [passed])
          obtain ⟨later, countedLater⟩ :=
            ih (valid.putEntry host replaceExisting entry world) others distinctRest hereAfter
          rw [passes] at later countedLater
          rw [taken, putAll]
          refine ⟨pins.cons later ?_, ?_⟩
          · rw [List.map_map]
            exact fun member => apart ((List.filter_sublist.map Entry.key).subset member)
          · have alike : countedCopies (putEntry host replaceExisting entry tiers world).1 (host.moment world)
                (rest.filter fun other => !tiers.passesOver replaceExisting (host.moment world) other) =
                countedCopies tiers (host.moment world)
                  (rest.filter fun other => !tiers.passesOver replaceExisting (host.moment world) other) :=
              List.flatMap_congr fun other listed => by rw [shows other (List.mem_filter.mp listed).1]
            refine countedLater.trans ?_
            rw [alike, counted, ← Host.recordAll_append]
            rfl

/-! ### Any order of the pinned entries -/

theorem Pins.perm {slots others : List (Key × Option Value)} (pins : Pins slots tiers left) (also : Pins others tiers right)
    (same : slots.Perm others) (distinct : (slots.map Prod.fst).Nodup) : SameContents left right where
  slot? key := by rw [pins.slot?, also.slot?, Bindings.find?_perm same distinct]
  primary := by
    rw [pins.primary, also.primary]
    exact List.filter_congr fun binding _ => decide_eq_decide.mpr (not_congr (same.map Prod.fst).mem_iff)
  cacheSize := pins.cacheSize.trans also.cacheSize.symm
  order := pins.order.trans also.order.symm
  soft := by
    rw [pins.soft, also.soft]
    exact List.filter_congr fun binding _ => decide_eq_decide.mpr (not_congr (same.map Prod.fst).mem_iff)
  softReferenceSize := pins.softReferenceSize.trans also.softReferenceSize.symm
  ttl := pins.ttl.trans also.ttl.symm

theorem putAll_perm {pins others : List (Entry Key Value)} (valid : tiers.Valid) (counts : host.Counts)
    (replaceExisting : Bool) (same : pins.Perm others) (pinned : ∀ entry ∈ pins, entry.tier = .pinned)
    (unpinned : ∀ entry ∈ entries, entry.tier ≠ .pinned) (distinct : (pins.map Entry.key).Nodup) (world : World) :
    Coincide (putAll host replaceExisting (pins ++ entries) tiers world)
      (putAll host replaceExisting (others ++ entries) tiers world) := by
  obtain ⟨first, counted⟩ := pins_putAll counts valid pinned distinct replaceExisting (rfl : host.moment world = _)
  obtain ⟨second, also⟩ := pins_putAll counts valid (fun entry listed => pinned entry (same.mem_iff.mpr listed))
    ((same.map Entry.key).nodup_iff.mp distinct) replaceExisting (rfl : host.moment world = _)
  have copied := same.filter fun entry => !tiers.passesOver replaceExisting (host.moment world) entry
  have contents := first.perm second (copied.map _) (by
    rw [List.map_map]
    exact (List.filter_sublist.map Entry.key).nodup distinct)
  have worlds : (putAll host replaceExisting pins tiers world).2 = (putAll host replaceExisting others tiers world).2 := by
    rw [counted, also]
    exact counts.recordAll_perm (copied.flatMap_right _) world
  rw [putAll_append, putAll_append]
  dsimp only
  rw [worlds]
  exact putAll_congr contents host replaceExisting unpinned _

/-- Tiers with the same contents list the same entries, the pinned ones in some order. -/
theorem SameContents.lists_alike (same : SameContents left right) (moment : Moment) :
    ∃ pins others rest : List (Entry Key Value), left.entries moment = pins ++ rest ∧
      right.entries moment = others ++ rest ∧ pins.Perm others ∧ (∀ entry ∈ pins, entry.tier = .pinned) ∧
        ∀ entry ∈ rest, entry.tier ≠ .pinned := by
  have nodup : ∀ tier : PinnedTier Key Value, tier.toList.Nodup :=
    fun tier => .of_map Prod.fst (tier.keys_toList.nodup tier.slots.distinct)
  have listed : left.pinned.toList.Perm right.pinned.toList := by
    refine (List.perm_ext_iff_of_nodup (nodup _) (nodup _)).mpr ?_
    rintro ⟨key, value⟩
    rw [PinnedTier.mem_toList_iff, PinnedTier.mem_toList_iff, same.slot?]
  have live : left.soft.live moment = right.soft.live moment := by
    rw [SoftTier.live_eq_visible, SoftTier.live_eq_visible, SoftTier.visible_eq, SoftTier.visible_eq, same.soft, same.ttl]
  refine ⟨_, _, _, entries_tagged left moment, ?_, listed.map _, fun entry => tier_of_tagged, ?_⟩
  · rw [entries_tagged, same.primary, live]
    rfl
  · intro entry member
    rcases List.mem_append.mp member with primary | soft
    · exact unpinned_of_tagged (by decide) primary
    · exact unpinned_of_tagged (by decide) soft

/-- In whichever order entries come that were pinned at their source, copying them with the others, in their order, leaves
the same contents and the same world. So it makes no difference in which order a source lists its pins. -/
theorem pinned_copies_come_in_any_order (reachable : tiers.Reachable) (counts : host.Counts) (replaceExisting : Bool)
    (world : World) :
    (∀ pins others rest : List (Entry Key Value), pins.Perm others → (∀ entry ∈ pins, entry.tier = .pinned) →
        (∀ entry ∈ rest, entry.tier ≠ .pinned) → ((pins ++ rest).map Entry.key).Nodup →
          Coincide (putAll host replaceExisting (pins ++ rest) tiers world)
            (putAll host replaceExisting (others ++ rest) tiers world)) ∧
      ∀ source other : Tiers Key Value, source.Reachable → source.SameContents other → ∀ moment,
        Coincide (putAll host replaceExisting (source.entries moment) tiers world)
          (putAll host replaceExisting (other.entries moment) tiers world) := by
  have valid := reachable.valid
  constructor
  · intro pins others rest same pinned unpinned distinct
    rw [List.map_append, List.nodup_append] at distinct
    exact putAll_perm valid counts replaceExisting same pinned unpinned distinct.1 world
  · intro source other made same moment
    obtain ⟨pins, others, rest, listed, also, perm, pinned, unpinned⟩ := same.lists_alike moment
    have distinct := made.valid.distinct_entries moment
    rw [listed, List.map_append, List.nodup_append] at distinct
    rw [listed, also]
    exact putAll_perm valid counts replaceExisting perm pinned unpinned distinct.1 world

/-- Two pins that come in either order are registered in that order, which is all that differs, here and wherever they are
copied to from here. -/
theorem two_pins_come_in_either_order :
    let ledger : Ledger Nat Nat := .start ⟨0, 0⟩
    let asked : List (Operation Nat Nat) := [.put 1 10, .put 2 20]
    let tiers := asked.foldl (fun tiers operation => (operate .ledger operation tiers ledger).2.1)
      (.empty .lru 1 1 none)
    let pins : List (Entry Nat Nat) := [⟨1, 11, .pinned⟩, ⟨5, 50, .pinned⟩]
    let rest : List (Entry Nat Nat) := [⟨4, 40, .primary⟩]
    let one := putAll .ledger true (pins ++ rest) tiers ledger
    let other := putAll .ledger true (pins.reverse ++ rest) tiers ledger
    one.1.pinnedKeys = [1, 5] ∧ other.1.pinnedKeys = [5, 1] ∧ Coincide one other ∧
      Coincide (putAll .ledger false (one.1.entries ⟨0, 0⟩) tiers ledger)
        (putAll .ledger false (other.1.entries ⟨0, 0⟩) tiers ledger) := by
  intro ledger asked tiers pins rest one other
  have reachable : tiers.Reachable := (Reachable.fresh .lru 1 1 none).foldl .ledger ledger asked
  have made : one.1.Reachable := reachable.step .ledger (.putAll (pins ++ rest) true) ledger
  have orders : one.1.pinnedKeys = [1, 5] ∧ other.1.pinnedKeys = [5, 1] := by decide +kernel
  have coincide : Coincide one other :=
    (pinned_copies_come_in_any_order reachable Host.counts_ledger true ledger).1 pins pins.reverse rest
      pins.reverse_perm.symm (by decide) (by decide) (by decide)
  have copied := (pinned_copies_come_in_any_order reachable Host.counts_ledger false ledger).2 one.1 other.1 made
    coincide.1 ⟨0, 0⟩
  exact ⟨orders.1, orders.2, coincide, copied⟩

end Tiers

end LayeredCache
