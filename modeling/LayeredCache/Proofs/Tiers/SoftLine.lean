import LayeredCache.Proofs.Tiers.Serving

/-! What the line of the soft tier obeys. An operation changes it in two ways only: entries leave, and an entry is
appended that bears the instant read by the operation and the epoch of its acceptance, between which the host may have
done anything. A law that outlasts both outlasts every operation. -/

set_option autoImplicit false

namespace LayeredCache

variable {World Key Value : Type} [DecidableEq Key]

/-- A law of the soft line in a present world, given the world in which the operation at work read its instant. -/
structure Law (host : Host World Key Value)
    (obeyed : World → World → Option Span → List (Key × Stamped Value) → Prop) : Prop where
  sublist : ∀ {read now ttl line other}, obeyed read now ttl line → List.Sublist other line →
    obeyed read now ttl other
  record : ∀ {read now ttl line} recording, obeyed read now ttl line →
    obeyed read (host.record recording now) ttl line
  notify : ∀ {read now ttl line} event, obeyed read now ttl line →
    obeyed read (host.notify event now) ttl line
  reread : ∀ {read now ttl line}, obeyed read now ttl line → obeyed now now ttl line
  accepted : ∀ {read now ttl line} (key : Key) (value : Value), obeyed read now ttl line →
    obeyed read now ttl (line ++ [(key, ⟨value, ⟨host.clock read, host.epoch now⟩⟩)])

theorem SoftTier.accept_sublist (tier : SoftTier Key Value) (moment : Moment) (key : Key) (value : Value) :
    (tier.accept moment key value).2.toList.Sublist (tier.toList ++ [(key, ⟨value, moment⟩)]) := by
  by_cases disabled : tier.capacity = 0
  · rw [accept_of_capacity_zero disabled]
    exact List.sublist_append_left _ _
  · have offered : (Bindings.erase key tier.toList ++ [(key, Stamped.mk value moment)]).Sublist
        (tier.toList ++ [(key, Stamped.mk value moment)]) :=
      (Bindings.erase_sublist key tier.toList).append (.refl _)
    rw [(accept_eq disabled moment key value).2]
    split
    · exact (List.tail_sublist _).trans offered
    · exact offered

namespace Tiers

variable {host : Host World Key Value} {tiers : Tiers Key Value} {read world : World}
  {obeyed : World → World → Option Span → List (Key × Stamped Value) → Prop}

/-- Tiers whose soft line obeys a law in the world beside them. -/
def Obeys (obeyed : World → World → Option Span → List (Key × Stamped Value) → Prop) (read : World)
    (outcome : Tiers Key Value × World) : Prop :=
  obeyed read outcome.2 outcome.1.soft.ttl outcome.1.soft.toList

theorem Obeys.record (law : Law host obeyed) (obeys : Obeys obeyed read (tiers, world))
    (recording : Metrics.Recording) : Obeys obeyed read (tiers, host.record recording world) :=
  Law.record law recording obeys

theorem Obeys.notify (law : Law host obeyed) (obeys : Obeys obeyed read (tiers, world))
    (event : Event Key Value) : Obeys obeyed read (tiers, host.notify event world) :=
  Law.notify law event obeys

theorem Obeys.reread (law : Law host obeyed) {outcome : Tiers Key Value × World}
    (obeys : Obeys obeyed read outcome) : Obeys obeyed outcome.2 outcome :=
  Law.reread law obeys

theorem Obeys.withoutSoft (law : Law host obeyed) (obeys : Obeys obeyed read (tiers, world)) (key : Key) :
    Obeys obeyed read (tiers.withoutSoft key, world) := by
  have included := Bindings.erase_sublist key tiers.soft.toList
  rw [← toList_withoutSoft] at included
  exact law.sublist obeys included

theorem Obeys.counted_if (law : Law host obeyed) (obeys : Obeys obeyed read (tiers, world)) (found : Bool)
    (recording : Metrics.Recording) :
    Obeys obeyed read (tiers, if found then host.record recording world else world) := by
  cases found with
  | false => exact obeys
  | true => exact obeys.record law recording

theorem Obeys.accept (law : Law host obeyed) (obeys : Obeys obeyed read (tiers, world)) (key : Key)
    (value : Value) :
    Obeys obeyed read
      ({ tiers with soft := (tiers.soft.accept ⟨host.clock read, host.epoch world⟩ key value).2 }, world) := by
  have accepted := law.sublist (law.accepted key value obeys) (tiers.soft.accept_sublist _ key value)
  unfold Obeys
  dsimp only
  rw [SoftTier.ttl_accept]
  exact accepted

theorem Obeys.demote (law : Law host obeyed) (obeys : Obeys obeyed read (tiers, world)) (entry : Key × Value) :
    Obeys obeyed read (Tiers.demote host (host.clock read) entry tiers world) := by
  have told : ∀ flag, Obeys obeyed read (tiers, overflowTold host flag entry world) :=
    fun flag => (obeys.record law _).notify law _
  by_cases disabled : tiers.soft.capacity = 0
  · rw [demote_disabled disabled]
    exact told false
  · have accepted := (told true).accept law entry.1 entry.2
    rw [demote_enabled (Nat.pos_of_ne_zero disabled)]
    cases dropped : (tiers.soft.accept ⟨host.clock read,
        host.epoch (overflowTold host true entry world)⟩ entry.1 entry.2).1 with
    | none => exact accepted
    | some other => exact (accepted.record law _).notify law _

theorem Obeys.demoteAll (law : Law host obeyed) (obeys : Obeys obeyed read (tiers, world))
    (entries : List (Key × Value)) :
    Obeys obeyed read (Tiers.demoteAll host (host.clock read) entries tiers world) := by
  induction entries generalizing tiers world with
  | nil => exact obeys
  | cons entry rest ih => exact ih (obeys.demote law entry)

theorem Obeys.insertPrimary (law : Law host obeyed) (obeys : Obeys obeyed read (tiers, world)) (key : Key)
    (value : Value) :
    Obeys obeyed read (Tiers.insertPrimary host (host.clock read) key value tiers world).2 := by
  have inserted : Obeys obeyed read
      ({ tiers with primary := (tiers.primary.insert key value).2 }, world) := obeys
  simp only [Tiers.insertPrimary]
  split
  · exact inserted
  · exact inserted.demote law _

/-- An operation that counts a call reads its instant then. -/
theorem Obeys.called (law : Law host obeyed) (obeys : Obeys obeyed world (tiers, world))
    (recording : Metrics.Recording) :
    Obeys obeyed (host.record recording world) (tiers, host.record recording world) :=
  (obeys.record law recording).reread law

theorem Obeys.get (law : Law host obeyed) (obeys : Obeys obeyed world (tiers, world)) (key : Key) :
    ∃ read, Obeys obeyed read (Tiers.get host key tiers world).2 := by
  have called := obeys.called law .getCall
  cases pinned : tiers.pinned.slot? key with
  | some slot =>
      rw [get_of_pinned pinned]
      exact ⟨_, called.record law _⟩
  | none =>
      cases present : tiers.primary.peek? key with
      | some value =>
          rw [get_of_primary pinned present]
          exact ⟨_, called.record law _⟩
      | none =>
          have taken := called.withoutSoft law key
          cases live : tiers.soft.peek? (host.moment (host.record .getCall world)) key with
          | some value =>
              rw [get_of_soft pinned present live]
              have promoted : Obeys obeyed (host.record .getCall world) (tiers.withoutSoft key,
                  host.record .softPromotion (host.record .getSoftHit (host.record .getCall world))) :=
                (taken.record law _).record law _
              exact ⟨_, promoted.insertPrimary law key value⟩
          | none =>
              rw [get_of_missing pinned present live]
              exact ⟨_, taken.record law _⟩

theorem Obeys.put (law : Law host obeyed) (obeys : Obeys obeyed world (tiers, world)) (key : Key)
    (value : Value) : ∃ read, Obeys obeyed read (Tiers.put host key value tiers world).2 := by
  have called := obeys.called law .putCall
  cases pinned : tiers.pinned.slot? key with
  | some slot =>
      rw [put_of_pinned pinned]
      exact ⟨_, called.record law _⟩
  | none =>
      have inserted := (called.withoutSoft law key).insertPrimary law key value
      rw [put_of_unpinned pinned]
      exact ⟨_, inserted.record law _⟩

theorem Obeys.remove (law : Law host obeyed) (obeys : Obeys obeyed world (tiers, world)) (key : Key) :
    ∃ read, Obeys obeyed read (Tiers.remove host key tiers world).2 := by
  have taken := (obeys.called law .removeCall).withoutSoft law key
  rw [remove_eq]
  exact ⟨_, taken.counted_if law _ .removeFound⟩

theorem Obeys.pin (law : Law host obeyed) (obeys : Obeys obeyed world (tiers, world)) (key : Key) :
    ∃ read, Obeys obeyed read (Tiers.pin host key tiers world).2 := by
  have called := obeys.called law .pinCall
  cases slot : tiers.pinned.slot? key with
  | some held =>
      rw [pin_of_pinned slot]
      exact ⟨_, called.counted_if law _ .pinFound⟩
  | none =>
      cases present : tiers.primary.peek? key with
      | some value =>
          rw [pin_of_primary slot present]
          exact ⟨_, called.record law _⟩
      | none =>
          have taken := called.withoutSoft law key
          rw [pin_of_absent slot present]
          exact ⟨_, taken.counted_if law _ .pinFound⟩

theorem Obeys.unpin (law : Law host obeyed) (obeys : Obeys obeyed world (tiers, world)) (key : Key) :
    ∃ read, Obeys obeyed read (Tiers.unpin host key tiers world).2 := by
  have called := obeys.called law .unpinCall
  cases slot : tiers.pinned.slot? key with
  | none =>
      rw [unpin_of_unpinned slot]
      exact ⟨_, called⟩
  | some held =>
      cases held with
      | none =>
          rw [unpin_of_empty slot]
          exact ⟨_, called.record law _⟩
      | some value =>
          have unpinned : Obeys obeyed (host.record .unpinCall world)
              ({ tiers with pinned := (tiers.pinned.unpin key).2 }, host.record .unpinCall world) := called
          have inserted := unpinned.insertPrimary law key value
          rw [unpin_of_valued slot]
          exact ⟨_, inserted.record law _⟩

theorem Obeys.putEntry (law : Law host obeyed) (obeys : Obeys obeyed world (tiers, world))
    (replaceExisting : Bool) (entry : Entry Key Value) :
    ∃ read, Obeys obeyed read (Tiers.putEntry host replaceExisting entry tiers world) := by
  simp only [Tiers.putEntry]
  split
  · exact ⟨world, obeys⟩
  · split
    · obtain ⟨read, pinned⟩ := obeys.pin law entry.key
      exact (pinned.reread law).put law entry.key entry.value
    · exact obeys.put law entry.key entry.value

theorem Obeys.putAll (law : Law host obeyed) (obeys : Obeys obeyed world (tiers, world))
    (replaceExisting : Bool) (entries : List (Entry Key Value)) :
    ∃ read, Obeys obeyed read (Tiers.putAll host replaceExisting entries tiers world) := by
  induction entries generalizing tiers world with
  | nil => exact ⟨world, obeys⟩
  | cons entry rest ih =>
      obtain ⟨read, copied⟩ := obeys.putEntry law replaceExisting entry
      exact ih (copied.reread law)

theorem Obeys.setCacheSize (law : Law host obeyed) (obeys : Obeys obeyed world (tiers, world))
    (capacity : Nat) : Obeys obeyed world (Tiers.setCacheSize host capacity tiers world) := by
  have resized : Obeys obeyed world
      ({ tiers with primary := (tiers.primary.setCapacity capacity).2 }, world) := obeys
  rw [setCacheSize_eq]
  exact resized.demoteAll law _

theorem Obeys.setSoftReferenceSize (law : Law host obeyed) (obeys : Obeys obeyed world (tiers, world))
    (capacity : Nat) : Obeys obeyed world (Tiers.setSoftReferenceSize host capacity tiers world) := by
  have included : (tiers.soft.setCapacity capacity).2.toList.Sublist tiers.soft.toList := by
    rw [(tiers.soft.setCapacity_eq capacity).2]
    exact List.drop_sublist _ _
  have kept : Obeys obeyed world ({ tiers with soft := (tiers.soft.setCapacity capacity).2 }, world) :=
    law.sublist obeys included
  simp only [Tiers.setSoftReferenceSize]
  generalize { tiers with soft := (tiers.soft.setCapacity capacity).2 } = resized at kept ⊢
  generalize (tiers.soft.setCapacity capacity).1 = dropped
  -- announcing what was dropped happens to the world alone
  have announced : ∀ {read now}, Obeys obeyed read (resized, now) → Obeys obeyed read
      (resized, dropped.foldl (fun world entry => announceSoftOverflow host entry world) now) := by
    induction dropped with
    | nil => exact fun held => held
    | cons entry rest ih => exact fun held => ih ((held.record law _).notify law _)
  exact announced kept

theorem Obeys.purgeSoft (law : Law host obeyed) (obeys : Obeys obeyed world (tiers, world)) :
    Obeys obeyed world (Tiers.purgeSoft host tiers world).2 := by
  have included : (tiers.soft.purge (host.moment world)).2.toList.Sublist tiers.soft.toList := by
    rw [(tiers.soft.purge_eq (host.moment world)).2]
    exact List.dropWhile_sublist _
  have kept : Obeys obeyed world ({ tiers with soft := (tiers.soft.purge (host.moment world)).2 }, world) :=
    law.sublist obeys included
  simp only [Tiers.purgeSoft]
  generalize { tiers with soft := (tiers.soft.purge (host.moment world)).2 } = purged at kept ⊢
  generalize (tiers.soft.purge (host.moment world)).1 = dropped
  have announced : ∀ {read now}, Obeys obeyed read (purged, now) → Obeys obeyed read
      (purged, dropped.foldl (fun world entry => host.notify (.softReclaimed entry.1) world) now) := by
    induction dropped with
    | nil => exact fun held => held
    | cons entry rest ih => exact fun held => ih (held.notify law _)
  split
  · exact kept
  · exact announced (kept.record law _)

theorem Obeys.clear (law : Law host obeyed) (obeys : Obeys obeyed read (tiers, world)) :
    Obeys obeyed read (Tiers.clear host tiers world) := by
  have emptied : Obeys obeyed read (⟨.empty, tiers.primary.clear, tiers.soft.clear⟩, world) :=
    law.sublist obeys (List.nil_sublist _)
  exact emptied.record law .clear

/-- A law outlasts every operation. -/
theorem Obeys.operate (law : Law host obeyed) (obeys : Obeys obeyed world (tiers, world))
    (operation : Operation Key Value) :
    Obeys obeyed (Tiers.operate host operation tiers world).2.2 (Tiers.operate host operation tiers world).2 := by
  have outlasts : ∃ read, Obeys obeyed read (Tiers.operate host operation tiers world).2 := by
    cases operation with
    | put key value => exact obeys.put law key value
    | get key => exact obeys.get law key
    | remove key => exact obeys.remove law key
    | pin key => exact obeys.pin law key
    | unpin key => exact obeys.unpin law key
    | putAll entries replaceExisting => exact obeys.putAll law replaceExisting entries
    | clear => exact ⟨world, obeys.clear law⟩
    | setCacheSize capacity => exact ⟨world, obeys.setCacheSize law capacity⟩
    | setSoftReferenceSize capacity => exact ⟨world, obeys.setSoftReferenceSize law capacity⟩
    | purgeSoft => exact ⟨world, obeys.purgeSoft law⟩
  obtain ⟨read, after⟩ := outlasts
  exact after.reread law

theorem Obeys.operatePurged (law : Law host obeyed) (obeys : Obeys obeyed world (tiers, world))
    (operation : Operation Key Value) :
    Obeys obeyed (Tiers.operatePurged host operation tiers world).2.2
      (Tiers.operatePurged host operation tiers world).2 := by
  have purged := (obeys.purgeSoft law).reread law
  rw [Tiers.operatePurged]
  exact purged.operate law operation

theorem Obeys.operateHeld (law : Law host obeyed) (obeys : Obeys obeyed world (tiers, world))
    (operation : Operation Key Value) :
    Obeys obeyed (Tiers.operateHeld host operation tiers world).2.2
      (Tiers.operateHeld host operation tiers world).2 := by
  rcases operateHeld_cases host operation tiers world with ⟨-, purges⟩ | operates
  · rw [purges]
    exact obeys.operate law .purgeSoft
  · rw [operates]
    exact obeys.operatePurged law operation

omit [DecidableEq Key] in
/-- Whatever happens to a soft tier, its lifetime is what it was. -/
theorem ttl_law (host : Host World Key Value) (ttl : Option Span) :
    Law host fun _ _ kept (_ : List (Key × Stamped Value)) => kept = ttl :=
  ⟨fun same _ => same, fun _ same => same, fun _ same => same, fun same => same, fun _ _ same => same⟩

theorem ttl_operate (host : Host World Key Value) (operation : Operation Key Value) (tiers : Tiers Key Value)
    (world : World) : (operate host operation tiers world).2.1.soft.ttl = tiers.soft.ttl :=
  Obeys.operate (ttl_law host tiers.soft.ttl) rfl operation

/-- Tiers keep the lifetime that they are made with. -/
theorem ttl_operateHeld (host : Host World Key Value) (operation : Operation Key Value)
    (tiers : Tiers Key Value) (world : World) :
    (Tiers.operateHeld host operation tiers world).2.1.soft.ttl = tiers.soft.ttl :=
  Obeys.operateHeld (ttl_law host tiers.soft.ttl) rfl operation

end Tiers

end LayeredCache
