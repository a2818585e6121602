import LayeredCache.Proofs.Tiers.Valid

/-! What tiers store, whether anybody can see it or not. An operation stores nothing but what it was given and what was
stored before, and what it was given supersedes what its key had in any tier. -/

set_option autoImplicit false

namespace LayeredCache

variable {World Key Value : Type} [DecidableEq Key]

namespace Tiers

variable {host : Host World Key Value} {tiers after : Tiers Key Value} {key other : Key}
  {value found : Value} {world : World}

/-- A tier stores a value for a key; an entry of the soft tier need not be live. -/
inductive Stores (tiers : Tiers Key Value) (key : Key) (value : Value) : Prop where
  | pinned (slot : tiers.pinned.slot? key = some (some value))
  | primary (member : (key, value) ∈ tiers.primary.toList)
  | soft (stamp : Moment) (member : (key, ⟨value, stamp⟩) ∈ tiers.soft.toList)

/-- The new entry is the only one of its key, and every other entry was stored before. -/
def Supersedes (key : Key) (value : Value) (before after : Tiers Key Value) : Prop :=
  ∀ other found, after.Stores other found →
    (other = key ∧ found = value) ∨ (other ≠ key ∧ before.Stores other found)

/-- Nothing is stored that was not stored before. -/
def StoresNoMore (before after : Tiers Key Value) : Prop :=
  ∀ key value, after.Stores key value → before.Stores key value

theorem stores_of_peek {moment : Moment} (live : tiers.soft.peek? moment key = some value) :
    tiers.Stores key value := by
  rw [SoftTier.peek?_eq] at live
  obtain ⟨stored, present, shown⟩ := Option.bind_eq_some_iff.mp live
  split at shown
  · rw [← Option.some.inj shown]
    exact .soft stored.stamp (Bindings.mem_of_find? present)
  · cases shown

theorem stores_of_primary (present : tiers.primary.peek? key = some value) : tiers.Stores key value := by
  rw [PrimaryTier.peek?_eq] at present
  exact .primary (Bindings.mem_of_find? present)

theorem stores_withoutSoft (stores : (tiers.withoutSoft key).Stores other found) :
    tiers.Stores other found := by
  cases stores with
  | pinned slot => exact .pinned slot
  | primary member => exact .primary member
  | soft stamp member =>
      rw [toList_withoutSoft] at member
      exact .soft stamp (Bindings.mem_erase.mp member).1

/-- What a settled line stores was in the line or elsewhere before. -/
theorem Settles.stores {stamps : Moment → Prop} {line : List (Key × Value)}
    (settles : Settles stamps line tiers after) (stores : after.Stores other found) :
    tiers.pinned.slot? other = some (some found) ∨ (other, found) ∈ line ∨
      ∃ stamp, (other, ⟨found, stamp⟩) ∈ tiers.soft.toList := by
  cases stores with
  | pinned slot =>
      rw [settles.pinned] at slot
      exact .inl slot
  | primary member =>
      rw [settles.primary] at member
      exact .inr (.inl ((Line.rtake_sublist _ _).subset member))
  | soft stamp member =>
      obtain ⟨demoted, surplus, -, stored⟩ := settles.soft
      rw [stored] at member
      rcases List.mem_append.mp ((Line.rtake_sublist _ _).subset member) with old | added
      · exact .inr (.inr ⟨stamp, old⟩)
      · have dropped : (other, found) ∈ demoted.map Stamped.unstamped := List.mem_map_of_mem added
        rw [surplus] at dropped
        exact .inr (.inl ((Line.rdrop_sublist _ _).subset dropped))

theorem insertPrimary_supersedes (valid : tiers.Valid) (unpinned : tiers.pinned.slot? key = none)
    (absent : key ∉ tiers.softKeys) (host : Host World Key Value) (instant : Instant) (value : Value)
    (world : World) :
    Supersedes key value tiers (insertPrimary host instant key value tiers world).2.1 := by
  have pinnedElsewhere : ∀ {other found}, tiers.pinned.slot? other = some (some found) → other ≠ key := by
    rintro other found slot rfl
    rw [unpinned] at slot
    cases slot
  have softElsewhere : ∀ {other stored}, (other, stored) ∈ tiers.soft.toList → other ≠ key := by
    rintro other stored member rfl
    exact absent (List.mem_map_of_mem member)
  intro other found stores
  cases present : Bindings.find? key tiers.primary.toList with
  | none =>
      have settles := valid.settles_insertPrimary host.keeps_true instant value world trivial present absent
      rcases settles.stores stores with slot | member | ⟨stamp, member⟩
      · exact .inr ⟨pinnedElsewhere slot, .pinned slot⟩
      · rcases List.mem_append.mp member with stored | new
        · refine .inr ⟨?_, .primary stored⟩
          rintro rfl
          exact Bindings.find?_eq_none_iff.mp present (List.mem_map_of_mem stored)
        · exact .inl (Prod.mk.inj (List.mem_singleton.mp new))
      · exact .inr ⟨softElsewhere member, .soft stamp member⟩
  | some old =>
      rw [insertPrimary_present present] at stores
      cases stores with
      | pinned slot => exact .inr ⟨pinnedElsewhere slot, .pinned slot⟩
      | primary member =>
          rcases PrimaryTier.mem_insert_present present value member with new | ⟨differs, stored⟩
          · exact .inl (Prod.mk.inj new)
          · exact .inr ⟨differs, .primary stored⟩
      | soft stamp member => exact .inr ⟨softElsewhere member, .soft stamp member⟩

theorem get_storesNoMore (valid : tiers.Valid) (host : Host World Key Value) (key : Key)
    (world : World) : StoresNoMore tiers (get host key tiers world).2.1 := by
  intro other found stores
  cases pinned : tiers.pinned.slot? key with
  | some slot =>
      rw [get_of_pinned pinned] at stores
      exact stores
  | none =>
      cases present : tiers.primary.peek? key with
      | some value =>
          rw [get_of_primary pinned present] at stores
          cases stores with
          | pinned slot => exact .pinned slot
          | primary member => exact .primary (PrimaryTier.mem_touch member)
          | soft stamp member => exact .soft stamp member
      | none =>
          cases live : tiers.soft.peek? (host.moment (host.record .getCall world)) key with
          | some value =>
              rw [get_of_soft pinned present live] at stores
              rcases insertPrimary_supersedes (valid.withoutSoft key) pinned
                (Valid.absent_withoutSoft tiers key) host _ value _ other found stores with
                ⟨rfl, rfl⟩ | ⟨-, before⟩
              · exact stores_of_peek live
              · exact stores_withoutSoft before
          | none =>
              rw [get_of_missing pinned present live] at stores
              exact stores_withoutSoft stores

theorem put_supersedes (valid : tiers.Valid) (host : Host World Key Value) (key : Key) (value : Value)
    (world : World) : Supersedes key value tiers (put host key value tiers world).2.1 := by
  intro other found stores
  cases pinned : tiers.pinned.slot? key with
  | some slot =>
      rw [put_of_pinned pinned] at stores
      have apart : ∀ {other : Key}, other ∈ tiers.primaryKeys ∨ other ∈ tiers.softKeys → other ≠ key := by
        rintro other stored rfl
        have unpinned : tiers.pinned.slot? other = none :=
          stored.elim (valid.primaryUnpinned other) (valid.softUnpinned other)
        rw [unpinned] at pinned
        cases pinned
      cases stores with
      | pinned filled =>
          rw [PinnedTier.slot?_pin] at filled
          split at filled
          next same => exact .inl ⟨same, (Option.some.inj (Option.some.inj filled)).symm⟩
          next differs => exact .inr ⟨differs, .pinned filled⟩
      | primary member =>
          exact .inr ⟨apart (.inl (List.mem_map_of_mem member)), .primary member⟩
      | soft stamp member =>
          exact .inr ⟨apart (.inr (List.mem_map_of_mem member)), .soft stamp member⟩
  | none =>
      rw [put_of_unpinned pinned] at stores
      rcases insertPrimary_supersedes (valid.withoutSoft key) pinned
        (Valid.absent_withoutSoft tiers key) host _ value _ other found stores with new | ⟨differs, before⟩
      · exact .inl new
      · exact .inr ⟨differs, stores_withoutSoft before⟩

theorem remove_stores (host : Host World Key Value) (key : Key) (tiers : Tiers Key Value) (world : World)
    (stores : (remove host key tiers world).2.1.Stores other found) :
    other ≠ key ∧ tiers.Stores other found := by
  rw [remove_eq] at stores
  cases stores with
  | pinned slot =>
      rw [PinnedTier.slot?_unpin] at slot
      split at slot
      next => cases slot
      next differs => exact ⟨differs, .pinned slot⟩
  | primary member =>
      rw [(tiers.primary.remove_eq key).2] at member
      obtain ⟨stored, differs⟩ := Bindings.mem_erase.mp member
      exact ⟨differs, .primary stored⟩
  | soft stamp member =>
      rw [toList_withoutSoft] at member
      obtain ⟨stored, differs⟩ := Bindings.mem_erase.mp member
      exact ⟨differs, .soft stamp stored⟩

theorem pin_storesNoMore (host : Host World Key Value) (key : Key) (tiers : Tiers Key Value)
    (world : World) : StoresNoMore tiers (pin host key tiers world).2.1 := by
  intro other found stores
  cases slot : tiers.pinned.slot? key with
  | some held =>
      rw [pin_of_pinned slot] at stores
      exact stores
  | none =>
      cases present : tiers.primary.peek? key with
      | some value =>
          rw [pin_of_primary slot present] at stores
          cases stores with
          | pinned filled =>
              rw [PinnedTier.slot?_pin] at filled
              split at filled
              next same =>
                rw [same, ← Option.some.inj (Option.some.inj filled)]
                exact stores_of_primary present
              next => exact .pinned filled
          | primary member =>
              rw [(tiers.primary.remove_eq key).2] at member
              exact .primary (Bindings.mem_erase.mp member).1
          | soft stamp member => exact .soft stamp member
      | none =>
          rw [pin_of_absent slot present] at stores
          cases stores with
          | pinned filled =>
              rw [PinnedTier.slot?_pin] at filled
              split at filled
              next same =>
                rw [same]
                exact stores_of_peek (Option.some.inj filled)
              next => exact .pinned filled
          | primary member => exact .primary member
          | soft stamp member => exact stores_withoutSoft (.soft stamp member)

theorem unpin_storesNoMore (valid : tiers.Valid) (host : Host World Key Value) (key : Key)
    (world : World) : StoresNoMore tiers (unpin host key tiers world).2.1 := by
  have without : ∀ {other found},
      ({ tiers with pinned := (tiers.pinned.unpin key).2 } : Tiers Key Value).Stores other found →
        tiers.Stores other found := by
    intro other found stores
    cases stores with
    | pinned slot =>
        rw [PinnedTier.slot?_unpin] at slot
        split at slot
        · cases slot
        · exact .pinned slot
    | primary member => exact .primary member
    | soft stamp member => exact .soft stamp member
  intro other found stores
  cases slot : tiers.pinned.slot? key with
  | none =>
      rw [unpin_of_unpinned slot] at stores
      exact stores
  | some held =>
      cases held with
      | none =>
          rw [unpin_of_empty slot] at stores
          exact without stores
      | some value =>
          rw [unpin_of_valued slot] at stores
          have unpinned : (tiers.pinned.unpin key).2.slot? key = none := by
            rw [PinnedTier.slot?_unpin, if_pos rfl]
          rcases insertPrimary_supersedes (valid.unpinned key) unpinned (valid.softAbsent_of_pinned slot)
            host _ value _ other found stores with ⟨rfl, rfl⟩ | ⟨-, before⟩
          · exact .pinned slot
          · exact without before

theorem setCacheSize_storesNoMore (valid : tiers.Valid) (host : Host World Key Value) (capacity : Nat)
    (world : World) : StoresNoMore tiers (setCacheSize host capacity tiers world).1 := by
  intro other found stores
  have settles := valid.settles_setCacheSize host.keeps_true capacity world trivial
  rcases settles.stores stores with slot | member | ⟨stamp, member⟩
  · exact .pinned slot
  · exact .primary member
  · exact .soft stamp member

theorem setSoftReferenceSize_storesNoMore (host : Host World Key Value) (capacity : Nat)
    (tiers : Tiers Key Value) (world : World) :
    StoresNoMore tiers (setSoftReferenceSize host capacity tiers world).1 := by
  intro other found stores
  cases stores with
  | pinned slot => exact .pinned slot
  | primary member => exact .primary member
  | soft stamp member =>
      refine .soft stamp ?_
      have kept := (tiers.soft.setCapacity_eq capacity).2
      exact (List.drop_sublist _ _).subset (kept ▸ member)

theorem purgeSoft_storesNoMore (host : Host World Key Value) (tiers : Tiers Key Value) (world : World) :
    StoresNoMore tiers (purgeSoft host tiers world).2.1 := by
  intro other found stores
  rw [purgeSoft_snd] at stores
  cases stores with
  | pinned slot => exact .pinned slot
  | primary member => exact .primary member
  | soft stamp member =>
      rw [(tiers.soft.purge_eq (host.moment world)).2] at member
      exact .soft stamp ((List.dropWhile_sublist _).subset member)

theorem clear_stores (host : Host World Key Value) (tiers : Tiers Key Value) (world : World) :
    ¬(clear host tiers world).1.Stores other found := by
  intro stores
  cases stores with
  | pinned slot => cases slot
  | primary member => cases member
  | soft stamp member => cases member

/-! What operations hand out was stored. -/

theorem get_stored (host : Host World Key Value) (tiers : Tiers Key Value) (world : World)
    (answered : (get host key tiers world).1 = some value) : tiers.Stores key value := by
  cases pinned : tiers.pinned.slot? key with
  | some slot =>
      rw [get_of_pinned pinned] at answered
      exact .pinned (pinned.trans (congrArg some answered))
  | none =>
      cases present : tiers.primary.peek? key with
      | some stored =>
          rw [get_of_primary pinned present] at answered
          exact stores_of_primary (present.trans answered)
      | none =>
          cases live : tiers.soft.peek? (host.moment (host.record .getCall world)) key with
          | some stored =>
              rw [get_of_soft pinned present live] at answered
              exact stores_of_peek (live.trans answered)
          | none =>
              rw [get_of_missing pinned present live] at answered
              cases answered

theorem insertPrimary_stored (valid : tiers.Valid) (host : Host World Key Value) (instant : Instant)
    (world : World) (answered : (insertPrimary host instant key found tiers world).1 = some value) :
    tiers.Stores key value := by
  rw [insertPrimary_fst valid.primaryFits] at answered
  exact stores_of_primary answered

theorem put_stored (valid : tiers.Valid) (host : Host World Key Value) (world : World)
    (answered : (put host key found tiers world).1 = some value) : tiers.Stores key value := by
  cases pinned : tiers.pinned.slot? key with
  | some slot =>
      rw [put_of_pinned pinned] at answered
      exact .pinned (pinned.trans (congrArg some answered))
  | none =>
      rw [put_of_unpinned pinned] at answered
      rcases Option.or_eq_some_iff.mp answered with primary | ⟨-, soft⟩
      · exact stores_withoutSoft (insertPrimary_stored (valid.withoutSoft key) host _ _ primary)
      · exact stores_of_peek soft

theorem remove_stored (host : Host World Key Value) (tiers : Tiers Key Value) (world : World)
    (answered : (remove host key tiers world).1 = some value) : tiers.Stores key value := by
  rw [remove_eq] at answered
  rcases Option.or_eq_some_iff.mp answered with either | ⟨-, soft⟩
  · rcases Option.or_eq_some_iff.mp either with slot | ⟨-, primary⟩
    · exact .pinned (Option.join_eq_some_iff.mp slot)
    · exact stores_of_primary primary
  · exact stores_of_peek soft

theorem lookup_stored (host : Host World Key Value) (tiers : Tiers Key Value) (world : World)
    (answered : (lookup host key tiers world).1 = .hit value) : tiers.Stores key value := by
  rw [lookup] at answered
  split at answered
  next slot => exact .pinned (slot.trans (congrArg (some ∘ some) (Lookup.hit.inj answered)))
  next => cases answered
  next =>
    split at answered
    next present =>
      split at answered
      · cases answered
      · exact stores_of_primary (present.trans (congrArg some (Lookup.hit.inj answered)))
    next =>
      split at answered
      · cases answered
      · cases answered

end Tiers

end LayeredCache
