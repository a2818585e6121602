import LayeredCache.Proofs.Tiers.Course

/-! What becomes of pins. A key is pinned from the time it is until it is unpinned, removed or cleared away with the rest.
What is pinned stays out of reach of everything else: a value goes into its slot when it is put, and leaves it only by
name. -/

set_option autoImplicit false

namespace LayeredCache

variable {World Key Value : Type} [DecidableEq Key]

namespace Operation

/-- Whether an operation registers a key as pinned. -/
def pins (key : Key) : Operation Key Value → Bool
  | .pin other => decide (other = key)
  | _ => false

/-- Whether an operation drops the pin of a key, if there is one. -/
def unpins (key : Key) : Operation Key Value → Bool
  | .unpin other | .remove other => decide (other = key)
  | .clear => true
  | _ => false

/-- Whether an operation neither drops the pin of a key nor gives the key a value. -/
def spares (key : Key) : Operation Key Value → Bool
  | .unpin other | .remove other | .put other _ => decide (other ≠ key)
  | .putAll entries _ => entries.all fun entry => decide (entry.key ≠ key)
  | .clear => false
  | _ => true

end Operation

namespace PinnedTier

/-- What an operation does to the pins: what it says, or nothing. -/
inductive Repinned (before : PinnedTier Key Value) : Operation Key Value → PinnedTier Key Value → Prop where
  | same {operation : Operation Key Value} (registers : ∀ key, operation.pins key = true → before.slot? key ≠ none)
      (drops : ∀ key, operation.unpins key = true → before.slot? key = none) : Repinned before operation before
  | filled {key : Key} {slot : Option Value} (value : Value) (pinned : before.slot? key = some slot) :
      Repinned before (.put key value) (before.pin key (some value))
  | registered {key : Key} (found : Option Value) (unpinned : before.slot? key = none) :
      Repinned before (.pin key) (before.pin key found)
  | unpinned (key : Key) : Repinned before (.unpin key) (before.unpin key).2
  | removed (key : Key) : Repinned before (.remove key) (before.unpin key).2
  | cleared : Repinned before .clear .empty

variable {before after : PinnedTier Key Value} {operation : Operation Key Value} {key : Key} {value : Value}

/-- An operation that neither pins nor unpins leaves the pins alone. -/
theorem Repinned.alone (pins : ∀ key, operation.pins key = false) (unpins : ∀ key, operation.unpins key = false) :
    before.Repinned operation before := by
  refine .same ?_ ?_
  · intro key named
    cases (pins key).symm.trans named
  · intro key named
    cases (unpins key).symm.trans named

theorem Repinned.of_eq (kept : after = before) (pins : ∀ key, operation.pins key = false)
    (unpins : ∀ key, operation.unpins key = false) : before.Repinned operation after :=
  kept ▸ .alone pins unpins

/-- A pinned value stays where it is, unless its key is named. -/
theorem Repinned.holds (repinned : Repinned before operation after) (spared : operation.spares key = true)
    (held : before.slot? key = some (some value)) : after.slot? key = some (some value) := by
  cases repinned with
  | same => exact held
  | filled other pinned =>
      have apart := of_decide_eq_true spared
      rw [slot?_pin, if_neg (Ne.symm apart)]
      exact held
  | @registered other found unpinned =>
      have apart : key ≠ other := by
        rintro rfl
        cases unpinned.symm.trans held
      rw [slot?_pin, if_neg apart]
      exact held
  | unpinned other =>
      have apart := of_decide_eq_true spared
      rw [slot?_unpin, if_neg (Ne.symm apart)]
      exact held
  | removed other =>
      have apart := of_decide_eq_true spared
      rw [slot?_unpin, if_neg (Ne.symm apart)]
      exact held
  | cleared => cases spared

theorem isPinned_iff {tier : PinnedTier Key Value} : tier.isPinned key = true ↔ tier.slot? key ≠ none := by
  rw [isPinned, Directory.contains, Option.isSome_iff_ne_none]
  rfl

/-- The keys pinned after an operation are those that it pins, and those pinned before that it does not unpin. -/
theorem Repinned.isPinned_iff (repinned : Repinned before operation after) :
    after.isPinned key = true ↔
      operation.pins key = true ∨ before.isPinned key = true ∧ operation.unpins key = false := by
  rw [PinnedTier.isPinned_iff, PinnedTier.isPinned_iff]
  cases repinned with
  | same registers drops =>
      constructor
      · intro pinned
        right
        refine ⟨pinned, ?_⟩
        rw [Bool.eq_false_iff]
        exact fun unpins => pinned (drops key unpins)
      · rintro (pins | ⟨pinned, -⟩)
        · exact registers key pins
        · exact pinned
  | @filled other slot value pinned =>
      rw [slot?_pin]
      split
      next same =>
        subst same
        simp [Operation.pins, Operation.unpins, pinned]
      next => simp [Operation.pins, Operation.unpins]
  | @registered other found unpinned =>
      rw [slot?_pin]
      split
      next same => simp [Operation.pins, same]
      next apart => simp [Operation.pins, Operation.unpins, Ne.symm apart]
  | unpinned other | removed other =>
      rw [slot?_unpin]
      split
      next same => simp [Operation.pins, Operation.unpins, same]
      next apart => simp [Operation.pins, Operation.unpins, Ne.symm apart]
  | cleared => simp [Operation.pins, Operation.unpins, empty, slot?]

/-- A value for a pinned key changes no registration. -/
theorem keys_pin {slot : Option Value} (pinned : before.slot? key = some slot) (found : Option Value) :
    (before.pin key found).keys = before.keys := by
  have present : before.slots.contains key = true := by
    rw [Directory.contains]
    exact Option.isSome_iff_exists.mpr ⟨slot, pinned⟩
  rw [pin, keys, keys, Directory.insert, dif_pos present]
  exact Bindings.keys_reassign key found before.slots.entries

end PinnedTier

namespace Tiers

variable {host : Host World Key Value} {operation : Operation Key Value} {tiers start after : Tiers Key Value}
  {deeds : List (Deed Key Value)} {key : Key} {value : Value} {world : World}

theorem pinned_insertPrimary (host : Host World Key Value) (instant : Instant) (key : Key) (value : Value)
    (tiers : Tiers Key Value) (world : World) :
    (insertPrimary host instant key value tiers world).2.1.pinned = tiers.pinned := by
  rw [insertPrimary]
  dsimp only
  split
  · rfl
  next entry ejected => exact (demote_differ host instant entry _ world).pinned

theorem pinned_get (host : Host World Key Value) (key : Key) (tiers : Tiers Key Value) (world : World) :
    (get host key tiers world).2.1.pinned = tiers.pinned := by
  cases slot : tiers.pinned.slot? key with
  | some held => rw [get_of_pinned slot]
  | none =>
      cases present : tiers.primary.peek? key with
      | some value => rw [get_of_primary slot present]
      | none =>
          cases live : tiers.soft.peek? (host.moment (host.record .getCall world)) key with
          | some value =>
              rw [get_of_soft slot present live]
              exact pinned_insertPrimary host _ key value (tiers.withoutSoft key) _
          | none =>
              rw [get_of_missing slot present live]
              rfl

theorem pinned_setCacheSize (host : Host World Key Value) (capacity : Nat) (tiers : Tiers Key Value) (world : World) :
    (setCacheSize host capacity tiers world).1.pinned = tiers.pinned := by
  rw [setCacheSize_eq]
  exact (demoteAll_differ host _ _ _ world).pinned

theorem repinned_put (host : Host World Key Value) (key : Key) (value : Value) (tiers : Tiers Key Value)
    (world : World) : tiers.pinned.Repinned (.put key value) (put host key value tiers world).2.1.pinned := by
  cases slot : tiers.pinned.slot? key with
  | some held =>
      rw [put_of_pinned slot]
      exact .filled value slot
  | none =>
      rw [put_of_unpinned slot]
      dsimp only
      rw [pinned_insertPrimary]
      exact .alone (fun _ => rfl) fun _ => rfl

theorem repinned_pin (host : Host World Key Value) (key : Key) (tiers : Tiers Key Value) (world : World) :
    tiers.pinned.Repinned (.pin key) (pin host key tiers world).2.1.pinned := by
  cases slot : tiers.pinned.slot? key with
  | some held =>
      rw [pin_of_pinned slot]
      refine .same ?_ fun _ => nofun
      intro other named absent
      obtain rfl := of_decide_eq_true named
      cases slot.symm.trans absent
  | none =>
      cases present : tiers.primary.peek? key with
      | some value =>
          rw [pin_of_primary slot present]
          exact .registered (some value) slot
      | none =>
          rw [pin_of_absent slot present]
          exact .registered _ slot

theorem repinned_unpin (host : Host World Key Value) (key : Key) (tiers : Tiers Key Value) (world : World) :
    tiers.pinned.Repinned (.unpin key) (unpin host key tiers world).2.1.pinned := by
  cases slot : tiers.pinned.slot? key with
  | none =>
      rw [unpin_of_unpinned slot]
      refine .same (fun _ => nofun) ?_
      intro other named
      obtain rfl := of_decide_eq_true named
      exact slot
  | some held =>
      cases held with
      | none =>
          rw [unpin_of_empty slot]
          exact .unpinned key
      | some value =>
          rw [unpin_of_valued slot]
          dsimp only
          rw [pinned_insertPrimary]
          exact .unpinned key

/-- What an operation does to the pins, whatever its host does. -/
theorem repinned_operate (host : Host World Key Value) (elementary : operation.elementary = true)
    (tiers : Tiers Key Value) (world : World) :
    tiers.pinned.Repinned operation (operate host operation tiers world).2.1.pinned := by
  cases operation with
  | put key value => exact repinned_put host key value tiers world
  | get key =>
      refine .of_eq ?_ (fun _ => rfl) fun _ => rfl
      exact pinned_get host key tiers world
  | remove key => exact .removed key
  | pin key => exact repinned_pin host key tiers world
  | unpin key => exact repinned_unpin host key tiers world
  | putAll => cases elementary
  | clear => exact .cleared
  | setCacheSize capacity =>
      refine .of_eq ?_ (fun _ => rfl) fun _ => rfl
      exact pinned_setCacheSize host capacity tiers world
  | setSoftReferenceSize capacity => exact .alone (fun _ => rfl) fun _ => rfl
  | purgeSoft =>
      refine .of_eq ?_ (fun _ => rfl) fun _ => rfl
      show (purgeSoft host tiers world).2.1.pinned = tiers.pinned
      rw [purgeSoft_snd]

/-- A key that one deed pins and none of the later ones unpins. -/
def PinnedBy (deeds : List (Deed Key Value)) (key : Key) : Prop :=
  ∃ past deed future, deeds = past ++ deed :: future ∧ deed.operation.pins key = true ∧
    ∀ later ∈ future, later.operation.unpins key = false

theorem pinnedBy_concat {last : Deed Key Value} :
    PinnedBy (deeds ++ [last]) key ↔
      last.operation.pins key = true ∨ PinnedBy deeds key ∧ last.operation.unpins key = false := by
  constructor
  · rintro ⟨past, deed, future, split, pins, kept⟩
    rcases List.eq_nil_or_concat future with rfl | ⟨others, final, rfl⟩
    · obtain ⟨-, same⟩ := List.append_inj' split rfl
      obtain rfl := List.singleton_inj.mp same
      exact .inl pins
    · rw [List.concat_eq_append, ← List.cons_append, ← List.append_assoc] at split
      rw [List.concat_eq_append] at kept
      obtain ⟨rfl, same⟩ := List.append_inj' split rfl
      obtain rfl := List.singleton_inj.mp same
      obtain ⟨earlier, latest⟩ := List.forall_mem_append.mp kept
      exact .inr ⟨⟨past, deed, others, rfl, pins, earlier⟩, latest _ (List.mem_singleton.mpr rfl)⟩
  · rintro (pins | ⟨⟨past, deed, future, rfl, pins, kept⟩, latest⟩)
    · exact ⟨deeds, last, [], rfl, pins, List.forall_mem_nil _⟩
    · refine ⟨past, deed, future ++ [last], by simp, pins, ?_⟩
      rw [List.forall_mem_append, List.forall_mem_singleton]
      exact ⟨kept, latest⟩

/-- The keys that are pinned are those that were pinned and not unpinned since. -/
theorem Course.isPinned_iff (course : Course start deeds after) :
    after.isPinned key = true ↔
      PinnedBy deeds key ∨ start.isPinned key = true ∧ ∀ deed ∈ deeds, deed.operation.unpins key = false := by
  induction course with
  | start =>
      constructor
      · exact fun pinned => .inr ⟨pinned, List.forall_mem_nil _⟩
      · rintro (⟨past, deed, future, split, -⟩ | ⟨pinned, -⟩)
        · cases past <;> cases split
        · exact pinned
  | step before host operation elementary world ih =>
      rw [isPinned, (repinned_operate host elementary _ world).isPinned_iff, ← isPinned, ih, pinnedBy_concat,
        List.forall_mem_append, List.forall_mem_singleton]
      show _ ∨ _ ∧ operation.unpins key = false ↔
        (operation.pins key = true ∨ _ ∧ operation.unpins key = false) ∨ _ ∧ _ ∧ operation.unpins key = false
      tauto

/-- A pinned value outlasts whatever does not name its key. -/
theorem Course.holds (course : Course start deeds after) (spared : ∀ deed ∈ deeds, deed.operation.spares key = true)
    (held : start.pinned.slot? key = some (some value)) : after.pinned.slot? key = some (some value) := by
  induction course with
  | start => exact held
  | step _ host operation elementary world ih =>
      obtain ⟨earlier, last⟩ := List.forall_mem_append.mp spared
      exact (repinned_operate host elementary _ world).holds (last _ (List.mem_singleton.mpr rfl)) (ih earlier)

/-- A value put for a pinned key fills its slot and changes nothing else. -/
theorem Course.fills (course : Course start deeds after) {done : Deed Key Value} (listed : done ∈ deeds)
    (asked : done.operation = .put key value) (pinned : done.before.isPinned key = true) :
    done.after = { done.before with pinned := done.before.pinned.pin key (some value) } ∧
      done.after.pinnedKeys = done.before.pinnedKeys ∧ done.after.pinned.slot? key = some (some value) := by
  obtain ⟨past, future, split⟩ := List.append_of_mem listed
  obtain ⟨-, -, World, host, world, made⟩ := course.split split
  obtain ⟨slot, held⟩ := Option.ne_none_iff_exists'.mp (PinnedTier.isPinned_iff.mp pinned)
  have filled : done.after = { done.before with pinned := done.before.pinned.pin key (some value) } := by
    have left : done.after = (Tiers.operate host done.operation done.before world).2.1 := congrArg Deed.after made
    rw [left, asked]
    show (put host key value done.before world).2.1 = _
    rw [put_of_pinned held]
  refine ⟨filled, ?_, ?_⟩
  · rw [filled]
    exact PinnedTier.keys_pin held (some value)
  · rw [filled, PinnedTier.slot?_pin, if_pos rfl]

end Tiers

end LayeredCache
