import LayeredCache.Proofs.Bindings
import LayeredCache.Tiers.Operations

/-! Each operation in each place that its key can have: pinned, in the primary tier, live in the soft tier, or nowhere
that counts. -/

set_option autoImplicit false

namespace LayeredCache.Tiers

variable {World Key Value : Type} [DecidableEq Key] {tiers : Tiers Key Value} {key : Key}

/-- Tiers from whose soft tier a key is removed, live or not. -/
def withoutSoft (tiers : Tiers Key Value) (key : Key) : Tiers Key Value :=
  { tiers with soft := { tiers.soft with entries := (tiers.soft.entries.remove key).2 } }

theorem toList_withoutSoft (tiers : Tiers Key Value) (key : Key) :
    (tiers.withoutSoft key).soft.toList = Bindings.erase key tiers.soft.toList :=
  KeyedQueue.toList_remove _ _

theorem isPinned_eq (tiers : Tiers Key Value) (key : Key) :
    tiers.isPinned key = (tiers.pinned.slot? key).isSome := rfl

theorem get_of_pinned {slot : Option Value} (pinned : tiers.pinned.slot? key = some slot)
    (host : Host World Key Value) (world : World) :
    get host key tiers world =
      (slot, tiers, host.record (if slot.isSome then .getPinnedHit else .getMiss)
        (host.record .getCall world)) := by
  cases slot with
  | none => simp only [get, pinned]; rfl
  | some value => simp only [get, pinned]; rfl

theorem get_of_primary {value : Value} (unpinned : tiers.pinned.slot? key = none)
    (found : tiers.primary.peek? key = some value) (host : Host World Key Value) (world : World) :
    get host key tiers world =
      (some value, { tiers with primary := tiers.primary.touch key },
        host.record .getPrimaryHit (host.record .getCall world)) := by
  simp only [get, unpinned, PrimaryTier.get, found]

theorem get_of_soft {host : Host World Key Value} {world : World} {value : Value}
    (unpinned : tiers.pinned.slot? key = none) (absent : tiers.primary.peek? key = none)
    (live : tiers.soft.peek? (host.moment (host.record .getCall world)) key = some value) :
    get host key tiers world =
      (some value, (insertPrimary host (host.clock (host.record .getCall world)) key value
        (tiers.withoutSoft key)
        (host.record .softPromotion (host.record .getSoftHit (host.record .getCall world)))).2) := by
  simp only [get, unpinned, PrimaryTier.get, absent, SoftTier.take, live]
  rfl

theorem get_of_missing {host : Host World Key Value} {world : World}
    (unpinned : tiers.pinned.slot? key = none) (absent : tiers.primary.peek? key = none)
    (dead : tiers.soft.peek? (host.moment (host.record .getCall world)) key = none) :
    get host key tiers world =
      (none, tiers.withoutSoft key, host.record .getMiss (host.record .getCall world)) := by
  simp only [get, unpinned, PrimaryTier.get, absent, SoftTier.take, dead]
  rfl

theorem put_of_pinned {slot : Option Value} (pinned : tiers.pinned.slot? key = some slot)
    (host : Host World Key Value) (value : Value) (world : World) :
    put host key value tiers world =
      (slot, { tiers with pinned := tiers.pinned.pin key (some value) },
        host.record .putPinned (host.record .putCall world)) := by
  simp only [put, PinnedTier.replace?, pinned]
  rfl

theorem put_of_unpinned (unpinned : tiers.pinned.slot? key = none) (host : Host World Key Value)
    (value : Value) (world : World) :
    put host key value tiers world =
      let called := host.record .putCall world
      let inserted := insertPrimary host (host.clock called) key value (tiers.withoutSoft key) called
      let previous := inserted.1.or (tiers.soft.peek? (host.moment called) key)
      (previous, inserted.2.1,
        host.record (if previous.isSome then .putUpdate else .putNew) inserted.2.2) := by
  simp only [put, PinnedTier.replace?, unpinned]
  rfl

theorem remove_eq (host : Host World Key Value) (key : Key) (tiers : Tiers Key Value) (world : World) :
    remove host key tiers world =
      let called := host.record .removeCall world
      let removed := ((tiers.pinned.slot? key).join.or (tiers.primary.peek? key)).or
        (tiers.soft.peek? (host.moment called) key)
      (removed,
        ⟨(tiers.pinned.unpin key).2, (tiers.primary.remove key).2, (tiers.withoutSoft key).soft⟩,
        if removed.isSome then host.record .removeFound called else called) := by
  have stored : (tiers.primary.remove key).1 = tiers.primary.peek? key := by
    rw [PrimaryTier.peek?_eq]
    exact (tiers.primary.remove_eq key).1
  simp only [remove, stored]
  rfl

theorem pin_of_pinned {slot : Option Value} (pinned : tiers.pinned.slot? key = some slot)
    (host : Host World Key Value) (world : World) :
    pin host key tiers world =
      (slot.isSome, tiers,
        if slot.isSome then host.record .pinFound (host.record .pinCall world)
        else host.record .pinCall world) := by
  simp only [pin, pinned]

theorem pin_of_primary {value : Value} (unpinned : tiers.pinned.slot? key = none)
    (found : tiers.primary.peek? key = some value) (host : Host World Key Value) (world : World) :
    pin host key tiers world =
      (true, { tiers with
        primary := (tiers.primary.remove key).2, pinned := tiers.pinned.pin key (some value) },
        host.record .pinFound (host.record .pinCall world)) := by
  have stored : tiers.primary.remove key = (some value, (tiers.primary.remove key).2) := by
    rw [PrimaryTier.peek?_eq] at found
    exact Prod.ext ((tiers.primary.remove_eq key).1.trans found) rfl
  simp only [pin, unpinned]
  rw [stored]
  rfl

theorem pin_of_absent (unpinned : tiers.pinned.slot? key = none)
    (absent : tiers.primary.peek? key = none) (host : Host World Key Value) (world : World) :
    pin host key tiers world =
      let called := host.record .pinCall world
      let value := tiers.soft.peek? (host.moment called) key
      (value.isSome, { tiers.withoutSoft key with pinned := tiers.pinned.pin key value },
        if value.isSome then host.record .pinFound called else called) := by
  have stored : tiers.primary.remove key = (none, (tiers.primary.remove key).2) := by
    rw [PrimaryTier.peek?_eq] at absent
    exact Prod.ext ((tiers.primary.remove_eq key).1.trans absent) rfl
  simp only [pin, unpinned]
  rw [stored]
  rfl

theorem unpin_of_unpinned (unpinned : tiers.pinned.slot? key = none) (host : Host World Key Value)
    (world : World) :
    unpin host key tiers world = (false, tiers, host.record .unpinCall world) := by
  simp only [unpin, PinnedTier.unpin, unpinned]

theorem unpin_of_empty (pinned : tiers.pinned.slot? key = some none) (host : Host World Key Value)
    (world : World) :
    unpin host key tiers world =
      (true, { tiers with pinned := (tiers.pinned.unpin key).2 },
        host.record .unpinFound (host.record .unpinCall world)) := by
  simp only [unpin, PinnedTier.unpin, pinned]

theorem unpin_of_valued {value : Value} (pinned : tiers.pinned.slot? key = some (some value))
    (host : Host World Key Value) (world : World) :
    unpin host key tiers world =
      let called := host.record .unpinCall world
      let inserted := insertPrimary host (host.clock called) key value
        { tiers with pinned := (tiers.pinned.unpin key).2 } called
      (true, inserted.2.1, host.record .unpinFound inserted.2.2) := by
  simp only [unpin, PinnedTier.unpin, pinned]

theorem purgeSoft_snd (host : Host World Key Value) (tiers : Tiers Key Value) (world : World) :
    (purgeSoft host tiers world).2.1 =
      { tiers with soft := (tiers.soft.purge (host.moment world)).2 } := by
  simp only [purgeSoft]
  split <;> rfl

/-- A lookup that leaves its key to a write leaves the world alone. -/
theorem lookup_of_needsWrite {host : Host World Key Value} {world : World}
    (needed : (lookup host key tiers world).1 = .needsWrite) :
    lookup host key tiers world = (.needsWrite, world) := by
  revert needed
  simp only [lookup]
  split
  · exact nofun
  · exact nofun
  · split
    · split
      · exact fun _ => rfl
      · exact nofun
    · split
      · exact fun _ => rfl
      · exact nofun

end LayeredCache.Tiers
