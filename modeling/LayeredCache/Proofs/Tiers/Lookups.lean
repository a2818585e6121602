import LayeredCache.Proofs.Tiers.Readings

/-! Lookups beside gets. A lookup goes through the tiers on its own; what it resolves, a get would have answered alike and
counted alike, and would have left every value where it is. -/

set_option autoImplicit false

namespace LayeredCache

variable {World Key Value : Type} [DecidableEq Key]

namespace Tiers

variable {host : Host World Key Value} {tiers : Tiers Key Value} {key : Key} {moment : Moment} {world : World}

/-- Nothing is gone but the entry that a key has in the soft tier, if it has one there, which is dead. -/
structure DropsDead (key : Key) (moment : Moment) (before after : Tiers Key Value) : Prop where
  pinned : after.pinned = before.pinned
  primary : after.primary = before.primary
  softReferenceSize : after.softReferenceSize = before.softReferenceSize
  ttl : after.soft.ttl = before.soft.ttl
  soft : after.soft.toList = Bindings.erase key before.soft.toList
  dead : ∀ stored, (key, stored) ∈ before.soft.toList → stored.isLive before.soft.ttl moment = false

theorem DropsDead.nothing (absent : key ∉ tiers.softKeys) : DropsDead key moment tiers tiers where
  pinned := rfl
  primary := rfl
  softReferenceSize := rfl
  ttl := rfl
  soft := (Bindings.erase_eq_self absent).symm
  dead _ member := absurd (List.mem_map_of_mem member) absent

theorem DropsDead.withoutSoft (unseen : tiers.soft.peek? moment key = none) :
    DropsDead key moment tiers (tiers.withoutSoft key) where
  pinned := rfl
  primary := rfl
  softReferenceSize := rfl
  ttl := rfl
  soft := toList_withoutSoft tiers key
  dead stored member := by
    refine Bool.eq_false_iff.mpr fun live => ?_
    have shown : tiers.soft.peek? moment key = some stored.value :=
      SoftTier.peek?_eq_some_iff.mpr ⟨stored.stamp, List.mem_filter.mpr ⟨member, live⟩⟩
    cases unseen.symm.trans shown

/-- What a get comes to, by what a lookup in the same world finds: the answer, the tiers, and the world with its counts. -/
inductive Anticipates (key : Key) (moment : Moment) (tiers : Tiers Key Value) (world : World) :
    Lookup Value × World → Option Value × Tiers Key Value × World → Prop where
  | hit (value : Value) (counted : World) :
      Anticipates key moment tiers world (.hit value, counted) (some value, tiers, counted)
  | miss {after : Tiers Key Value} (counted : World) (drops : DropsDead key moment tiers after) :
      Anticipates key moment tiers world (.miss, counted) (none, after, counted)
  | needsWrite (value : Value) (after : Tiers Key Value) (counted : World) :
      Anticipates key moment tiers world (.needsWrite, world) (some value, after, counted)

theorem Valid.lookup_anticipates (valid : tiers.Valid)
    (still : host.moment (host.record .getCall world) = host.moment world) (key : Key) :
    Anticipates key (host.moment world) tiers world (Tiers.lookup host key tiers world) (Tiers.get host key tiers world) := by
  cases pinned : tiers.pinned.slot? key with
  | some slot =>
      have absent := valid.softAbsent_of_pinned pinned
      rw [get_of_pinned pinned, Tiers.lookup, pinned]
      cases slot with
      | some value => exact .hit value _
      | none => exact .miss _ (.nothing absent)
  | none =>
      rw [Tiers.lookup, pinned]
      cases present : tiers.primary.peek? key with
      | some value =>
          rw [get_of_primary pinned present]
          dsimp only
          split
          next => exact .needsWrite value _ _
          next fifo =>
            -- without an order of use, a read leaves the primary tier as it is
            have untouched : tiers.primary.touch key = tiers.primary := if_neg fifo
            rw [untouched]
            exact .hit value _
      | none =>
          dsimp only
          cases live : tiers.soft.peek? (host.moment world) key with
          | some value =>
              rw [get_of_soft pinned present (still.symm ▸ live), SoftTier.contains, live]
              exact .needsWrite value _ _
          | none =>
              rw [get_of_missing pinned present (still.symm ▸ live), SoftTier.contains, live]
              exact .miss _ (.withoutSoft live)

end Tiers

end LayeredCache
