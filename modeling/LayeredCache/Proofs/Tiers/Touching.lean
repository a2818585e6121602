import LayeredCache.Proofs.Tiers.Cascade
import LayeredCache.Proofs.Tiers.Pins

/-! Touching a key that has a value. Nothing else is lost: what a promoted value pushes out of the primary tier finds the
place that the value had in the soft tier, live or dead entries around it. -/

set_option autoImplicit false

namespace LayeredCache

variable {World Key Value : Type} [DecidableEq Key]

namespace Tiers

variable {host : Host World Key Value} {holds : World → Prop} {log : World → List (Event Key Value)}
  {stamp : Key × Value → Moment} {entry : Key × Value} {events : List (Event Key Value)}
  {tiers before after : Tiers Key Value} {key other : Key} {value : Value} {moment : Moment} {world : World}

theorem peek?_withoutSoft (tiers : Tiers Key Value) (moment : Moment) (key other : Key) :
    (tiers.withoutSoft key).soft.peek? moment other = if other = key then none else tiers.soft.peek? moment other := by
  rw [SoftTier.peek?_eq, SoftTier.peek?_eq, toList_withoutSoft, Bindings.find?_erase]
  split
  · rfl
  · rfl

/-- A dead entry is not missed, and neither is one of another key. -/
theorem value?_withoutSoft (dead : other = key → tiers.soft.peek? moment key = none) :
    (tiers.withoutSoft key).value? moment other = tiers.value? moment other := by
  rw [value?, value?, peek?_withoutSoft]
  split
  next same => rw [same, dead same]; rfl
  next => rfl

/-- The bounded tiers have room for one more entry, in one of them or the other. -/
def HasRoom (tiers : Tiers Key Value) : Prop := tiers.line.length < tiers.cacheSize + tiers.softReferenceSize

/-- A live entry that is taken out of the soft tier leaves room. -/
theorem room_withoutSoft (valid : tiers.Valid) (live : tiers.soft.peek? moment key = some value) :
    (tiers.withoutSoft key).HasRoom := by
  obtain ⟨stamp, shown⟩ := SoftTier.peek?_eq_some_iff.mp live
  have stored := (List.mem_filter.mp shown).1
  have found := (Bindings.find?_eq_some_iff tiers.soft.keysDistinct).mpr stored
  have positive := List.length_pos_of_mem stored
  have shorter : (tiers.withoutSoft key).soft.toList.length < tiers.soft.toList.length := by
    rw [toList_withoutSoft, Bindings.length_erase tiers.soft.keysDistinct, found, Option.isSome_some, if_pos rfl]
    exact Nat.sub_lt positive Nat.zero_lt_one
  rw [HasRoom, line, List.length_append, List.length_map, Nat.add_comm]
  exact Nat.add_lt_add_of_le_of_lt valid.primaryFits (Nat.lt_of_lt_of_le shorter valid.softFits)

/-- Where one entry is live, one accepted now is. -/
theorem isLive_now (live : tiers.soft.peek? moment key = some value) (fresh : Value) :
    Stamped.isLive tiers.soft.ttl moment ⟨fresh, moment⟩ = true := by
  obtain ⟨stamp, shown⟩ := SoftTier.peek?_eq_some_iff.mp live
  obtain ⟨-, young⟩ := Stamped.isLive_iff.mp (List.mem_filter.mp shown).2
  refine Stamped.isLive_iff.mpr ⟨rfl, ?_⟩
  intro lifetime given
  rw [Nat.sub_self]
  exact Nat.zero_lt_of_lt (young lifetime given)

/-- A value put for a key finds room in the bounded tiers, if it needs any, and shows wherever it ends up. -/
def Welcomes (tiers : Tiers Key Value) (moment : Moment) (key : Key) : Prop :=
  tiers.pinned.slot? key = none → tiers.primary.peek? key = none →
    (tiers.withoutSoft key).HasRoom ∧ ∀ fresh : Value, Stamped.isLive tiers.soft.ttl moment ⟨fresh, moment⟩ = true

theorem Valid.welcomes (valid : tiers.Valid) (shown : (tiers.value? moment key).isSome = true) :
    tiers.Welcomes moment key := by
  intro unpinned absent
  rw [value?_of_unpinned unpinned, absent, Option.none_or] at shown
  obtain ⟨old, live⟩ := Option.isSome_iff_exists.mp shown
  exact ⟨room_withoutSoft valid live, isLive_now live⟩

/-- Where the primary tier gives up an entry, it leaves what room there is to the soft tier. -/
theorem HasRoom.softRoom {ejected : Key × Value} (room : before.HasRoom)
    (gives : before.primary.GivesUp entry after.primary ejected) :
    before.soft.toList.length < before.softReferenceSize := by
  have full : before.cacheSize ≤ before.primary.toList.length := gives.full
  rw [HasRoom, line, List.length_append, List.length_map] at room
  omega

/-- With room left, whatever an entry that comes in pushes out is demoted. -/
theorem Cascade.demotes (cascade : Cascade stamp entry before after events) (room : before.HasRoom) :
    ∀ event ∈ events, ∃ key value, event = .primaryOverflow key value true := by
  cases cascade with
  | fits => exact nofun
  | dropped primary disabled =>
      exact absurd disabled (Nat.ne_of_gt (Nat.zero_lt_of_lt (room.softRoom primary)))
  | @demoted ejected primary =>
      intro event listed
      exact ⟨ejected.1, ejected.2, List.mem_singleton.mp listed⟩
  | displaced primary full => exact absurd full (Nat.ne_of_lt (room.softRoom primary))

/-- With room left, where the entry pushed out is live, every old entry and the new one can be seen. -/
theorem Cascade.shown (cascade : Cascade stamp entry before after events) (room : before.HasRoom)
    (ttl : after.soft.ttl = before.soft.ttl)
    (live : ∀ ejected : Key × Value, Stamped.isLive before.soft.ttl moment ⟨ejected.2, stamp ejected⟩ = true)
    (binding : Key × Value) :
    binding ∈ after.primary.toList ∨ binding ∈ after.soft.live moment ↔
      binding = entry ∨ binding ∈ before.primary.toList ∨ binding ∈ before.soft.live moment := by
  rw [SoftTier.live_eq_visible, SoftTier.live_eq_visible, SoftTier.visible_eq, SoftTier.visible_eq, ttl]
  cases cascade with
  | fits _ primary soft =>
      rw [primary, soft, List.mem_append, List.mem_singleton, or_assoc, or_left_comm]
  | dropped primary disabled =>
      exact absurd disabled (Nat.ne_of_gt (Nat.zero_lt_of_lt (room.softRoom primary)))
  | @demoted ejected primary _ soft =>
      have pushedOut := primary.mem_iff binding
      have fresh : [(ejected.1, Stamped.mk ejected.2 (stamp ejected))].filter
          (fun entry => entry.2.isLive before.soft.ttl moment) = [(ejected.1, ⟨ejected.2, stamp ejected⟩)] :=
        List.filter_cons_of_pos (live ejected)
      rw [soft, List.filter_append, fresh, List.map_append, List.mem_append, List.map_singleton, List.mem_singleton]
      show _ ∨ _ ∨ binding = ejected ↔ _
      rw [or_rotate, pushedOut, or_rotate]
  | displaced primary full => exact absurd full (Nat.ne_of_lt (room.softRoom primary))

/-- An entry that comes in where there is room changes what its own key shows, and nothing else. -/
theorem value?_insertPrimary (logs : host.Logs holds log) (held : holds world)
    (stands : ∀ {world}, holds world → host.moment world = moment) (valid : tiers.Valid)
    (unpinned : tiers.pinned.slot? key = none) (absent : tiers.primary.peek? key = none) (softAbsent : key ∉ tiers.softKeys)
    (room : tiers.HasRoom)
    (lasting : ∀ fresh : Value, Stamped.isLive tiers.soft.ttl moment ⟨fresh, moment⟩ = true) (value : Value)
    (other : Key) :
    (insertPrimary host moment.instant key value tiers world).2.1.value? moment other =
      if other = key then some value else tiers.value? moment other := by
  rw [PrimaryTier.peek?_eq] at absent
  have validAfter := valid.insertPrimary unpinned softAbsent host moment.instant value world
  have settles := valid.settles_insertPrimary logs.keeps moment.instant value world held absent softAbsent
  obtain ⟨events, -, cascade⟩ := insertPrimary_cascades logs held valid absent softAbsent moment.instant value
  have admitted : ∀ ejected, host.admission moment.instant world ejected = moment := by
    intro ejected
    rw [Host.admission, ← stands (overflowTold_keeps logs.keeps true ejected held)]
    rfl
  have live : ∀ ejected : Key × Value, Stamped.isLive tiers.soft.ttl moment
      ⟨ejected.2, host.admission moment.instant world ejected⟩ = true := by
    intro ejected
    rw [admitted]
    exact lasting ejected.2
  refine Option.ext fun found => ?_
  rw [validAfter.value?_eq_some_iff, settles.pinned, cascade.shown room settles.ttl live]
  split
  next same =>
    subst same
    have gone : (other, found) ∉ tiers.primary.toList := fun member =>
      Bindings.find?_eq_none_iff.mp absent (List.mem_map_of_mem member)
    have unseen : (other, found) ∉ tiers.soft.live moment := fun member =>
      softAbsent ((tiers.soft.keys_live moment).subset (List.mem_map_of_mem member))
    simp [unpinned, gone, unseen, eq_comm]
  next apart => simp [valid.value?_eq_some_iff, apart]

/-- What an operation does not touch: the registrations of pins, and whatever could be told to leave the cache. -/
structure Spares (log : World → List (Event Key Value)) (before after : Tiers Key Value × World) : Prop where
  registrations : after.1.pinnedKeys = before.1.pinnedKeys
  told : ∃ events, log after.2 = log before.2 ++ events ∧
    ∀ event ∈ events, ∃ key value, event = .primaryOverflow key value true

theorem Spares.quiet {later : World} (same : log later = log world)
    (registrations : after.pinnedKeys = before.pinnedKeys) : Spares log (before, world) (after, later) :=
  ⟨registrations, [], same.trans (List.append_nil _).symm, nofun⟩

/-- An entry that comes in where there is room costs nothing. -/
theorem insertPrimary_spares (logs : host.Logs holds log) (held : holds world) (valid : tiers.Valid)
    (absent : tiers.primary.peek? key = none) (softAbsent : key ∉ tiers.softKeys) (room : tiers.HasRoom)
    (instant : Instant) (placed : Value) :
    Spares log (tiers, world) (insertPrimary host instant key placed tiers world).2 := by
  rw [PrimaryTier.peek?_eq] at absent
  obtain ⟨events, told, cascade⟩ := insertPrimary_cascades logs held valid absent softAbsent instant placed
  refine ⟨?_, events, told, cascade.demotes room⟩
  rw [pinnedKeys, pinned_insertPrimary]
  rfl

theorem get_spares (logs : host.Logs holds log) (held : holds world) (valid : tiers.Valid) (key : Key) :
    Spares log (tiers, world) (get host key tiers world).2 := by
  have kept := logs.keeps.record .getCall held
  have called := logs.record .getCall held
  cases pinned : tiers.pinned.slot? key with
  | some slot =>
      rw [get_of_pinned pinned]
      exact .quiet ((logs.record _ kept).trans called) rfl
  | none =>
      cases present : tiers.primary.peek? key with
      | some value =>
          rw [get_of_primary pinned present]
          exact .quiet ((logs.record _ kept).trans called) rfl
      | none =>
          cases live : tiers.soft.peek? (host.moment (host.record .getCall world)) key with
          | none =>
              rw [get_of_missing pinned present live]
              exact .quiet ((logs.record _ kept).trans called) rfl
          | some value =>
              have hit := logs.keeps.record .getSoftHit kept
              have counted := (logs.record .softPromotion hit).trans ((logs.record .getSoftHit kept).trans called)
              obtain ⟨registrations, events, told, demoted⟩ := insertPrimary_spares logs
                (logs.keeps.record .softPromotion hit) (valid.withoutSoft key) present (Valid.absent_withoutSoft tiers key)
                (room_withoutSoft valid live) (host.clock (host.record .getCall world)) value
              rw [get_of_soft pinned present live]
              exact ⟨registrations, events, told.trans (congrArg (· ++ events) counted), demoted⟩

theorem put_spares_of_welcome (logs : host.Logs holds log) (held : holds world) (valid : tiers.Valid)
    (welcome : tiers.Welcomes moment key) (value : Value) :
    Spares log (tiers, world) (put host key value tiers world).2 := by
  have kept := logs.keeps.record .putCall held
  have called := logs.record .putCall held
  cases pinned : tiers.pinned.slot? key with
  | some slot =>
      rw [put_of_pinned pinned]
      exact .quiet ((logs.record _ kept).trans called) (PinnedTier.keys_pin pinned (some value))
  | none =>
      have inserted := insertPrimary_keeps logs.keeps kept (host.clock (host.record .putCall world)) key value
        (tiers.withoutSoft key)
      rw [put_of_unpinned pinned]
      cases present : tiers.primary.peek? key with
      | some old =>
          have stored : Bindings.find? key (tiers.withoutSoft key).primary.toList = some old := by
            rw [← PrimaryTier.peek?_eq]
            exact present
          dsimp only
          rw [insertPrimary_present stored] at inserted ⊢
          exact .quiet ((logs.record _ inserted).trans called) rfl
      | none =>
          obtain ⟨room, -⟩ := welcome pinned present
          obtain ⟨registrations, events, told, demoted⟩ := insertPrimary_spares logs kept (valid.withoutSoft key) present
            (Valid.absent_withoutSoft tiers key) room (host.clock (host.record .putCall world)) value
          exact ⟨registrations, events,
            (logs.record _ inserted).trans (told.trans (congrArg (· ++ events) called)), demoted⟩

theorem put_spares (logs : host.Logs holds log) (held : holds world) (valid : tiers.Valid)
    (shown : (tiers.value? (host.moment (host.record .putCall world)) key).isSome = true) (value : Value) :
    Spares log (tiers, world) (put host key value tiers world).2 :=
  put_spares_of_welcome logs held valid (valid.welcomes shown) value

/-- A value that goes to the primary tier, from the soft tier or as a new one, shows if there is room; nothing else changes
that can be seen. -/
theorem value?_placed (logs : host.Logs holds log) (held : holds world)
    (stands : ∀ {world}, holds world → host.moment world = moment) (valid : tiers.Valid)
    (unpinned : tiers.pinned.slot? key = none) (absent : tiers.primary.peek? key = none)
    (welcome : tiers.Welcomes moment key) (placed : Value) (other : Key) :
    (insertPrimary host moment.instant key placed (tiers.withoutSoft key) world).2.1.value? moment other =
      if other = key then some placed else tiers.value? moment other := by
  obtain ⟨room, lasting⟩ := welcome unpinned absent
  rw [value?_insertPrimary logs held stands (valid.withoutSoft key) unpinned absent (Valid.absent_withoutSoft tiers key)
    room lasting]
  split
  · rfl
  next apart => exact value?_withoutSoft fun same => absurd same apart

theorem value?_get (logs : host.Logs holds log) (held : holds world)
    (stands : ∀ {world}, holds world → host.moment world = moment) (valid : tiers.Valid) (key other : Key) :
    (get host key tiers world).2.1.value? moment other = tiers.value? moment other := by
  have kept := logs.keeps.record .getCall held
  have here : host.moment (host.record .getCall world) = moment := stands kept
  cases pinned : tiers.pinned.slot? key with
  | some slot => rw [get_of_pinned pinned]
  | none =>
      cases present : tiers.primary.peek? key with
      | some value =>
          rw [get_of_primary pinned present, value?, value?, PrimaryTier.peek?_touch]
      | none =>
          cases live : tiers.soft.peek? moment key with
          | none =>
              rw [← here] at live
              rw [get_of_missing pinned present live, value?_withoutSoft fun _ => here ▸ live]
          | some value =>
              have shown : tiers.value? moment key = some value := by
                rw [value?_of_unpinned pinned, present, live]
                rfl
              have instant : host.clock (host.record .getCall world) = moment.instant := congrArg Moment.instant here
              rw [get_of_soft pinned present (here.symm ▸ live), instant]
              dsimp only
              have welcome := valid.welcomes (Option.isSome_iff_exists.mpr ⟨value, shown⟩)
              rw [value?_placed logs (logs.keeps.record _ (logs.keeps.record _ kept)) stands valid pinned present welcome]
              split
              next same => rw [same, shown]
              next => rfl

theorem value?_put_of_welcome (logs : host.Logs holds log) (held : holds world)
    (stands : ∀ {world}, holds world → host.moment world = moment) (valid : tiers.Valid)
    (welcome : tiers.Welcomes moment key) (value : Value) (other : Key) :
    (put host key value tiers world).2.1.value? moment other =
      if other = key then some value else tiers.value? moment other := by
  have kept := logs.keeps.record .putCall held
  have here : host.moment (host.record .putCall world) = moment := stands kept
  cases pinned : tiers.pinned.slot? key with
  | some slot =>
      rw [put_of_pinned pinned, value?, value?, PinnedTier.value?, PinnedTier.slot?_pin]
      split
      · rfl
      · rfl
  | none =>
      have instant : host.clock (host.record .putCall world) = moment.instant := congrArg Moment.instant here
      rw [put_of_unpinned pinned]
      dsimp only
      rw [instant]
      cases present : tiers.primary.peek? key with
      | some old =>
          have stored : Bindings.find? key (tiers.withoutSoft key).primary.toList = some old := by
            rw [← PrimaryTier.peek?_eq]
            exact present
          rw [insertPrimary_present stored]
          show (tiers.pinned.value? other).or (((tiers.primary.insert key value).2.peek? other).or
            ((tiers.withoutSoft key).soft.peek? moment other)) = _
          rw [PrimaryTier.peek?_insert_present present]
          split
          next same =>
            rw [same, PinnedTier.value?, pinned]
            rfl
          next apart => exact value?_withoutSoft fun same => absurd same apart
      | none => exact value?_placed logs kept stands valid pinned present welcome value other

theorem value?_put (logs : host.Logs holds log) (held : holds world)
    (stands : ∀ {world}, holds world → host.moment world = moment) (valid : tiers.Valid)
    (shown : (tiers.value? moment key).isSome = true) (value : Value) (other : Key) :
    (put host key value tiers world).2.1.value? moment other =
      if other = key then some value else tiers.value? moment other :=
  value?_put_of_welcome logs held stands valid (valid.welcomes shown) value other

/-- Reading any key, and giving a new value to one that shows a value, changes no registration, and all that listeners are
told is what is demoted. While the moment stands still, every key goes on to show what it did, but for the new value. -/
theorem touching_costs_nothing (reachable : tiers.Reachable) (logs : host.Logs holds log) (held : holds world)
    (key : Key) :
    Spares log (tiers, world) (get host key tiers world).2 ∧
      (∀ value, (tiers.value? (host.moment (host.record .putCall world)) key).isSome = true →
        Spares log (tiers, world) (put host key value tiers world).2) ∧
      ∀ moment, (∀ {world}, holds world → host.moment world = moment) →
        (∀ other, (get host key tiers world).2.1.value? moment other = tiers.value? moment other) ∧
          ∀ value, (tiers.value? moment key).isSome = true → ∀ other,
            (put host key value tiers world).2.1.value? moment other =
              if other = key then some value else tiers.value? moment other := by
  have valid := reachable.valid
  refine ⟨get_spares logs held valid key, fun value shown => put_spares logs held valid shown value, ?_⟩
  intro moment stands
  exact ⟨value?_get logs held stands valid key,
    fun value shown other => value?_put logs held stands valid shown value other⟩

/-- A value that goes from a full soft tier to a full primary tier changes places with the one that was there. -/
theorem full_tiers_change_places :
    let moment : Moment := ⟨0, 0⟩
    let ledger : Ledger Nat Nat := .start moment
    let asked : List (Operation Nat Nat) := [.put 1 10, .put 2 20]
    let tiers := asked.foldl (fun tiers operation => (operate .ledger operation tiers ledger).2.1)
      (.empty .lru 1 1 none)
    let got := (get .ledger 1 tiers ledger).2
    let written := (put .ledger 1 11 tiers ledger).2
    got.2.events = [.primaryOverflow 2 20 true] ∧ Spares Ledger.events (tiers, ledger) got ∧
      Spares Ledger.events (tiers, ledger) written ∧
        (∀ other, got.1.value? moment other = tiers.value? moment other) ∧
          ∀ other, written.1.value? moment other = if other = 1 then some 11 else tiers.value? moment other := by
  intro moment ledger asked tiers got written
  have reachable : tiers.Reachable := (Reachable.fresh .lru 1 1 none).foldl .ledger ledger asked
  have logs : (Host.ledger : Host (Ledger Nat Nat) Nat Nat).Logs (fun ledger => ledger.moment = moment) Ledger.events :=
    ⟨Ledger.keeps_moment moment, fun _ _ _ => rfl, fun _ _ _ => rfl⟩
  have told : got.2.events = [.primaryOverflow 2 20 true] := by decide +kernel
  have shown : (tiers.value? moment 1).isSome = true := by decide +kernel
  obtain ⟨spared, rewritten, standing⟩ := touching_costs_nothing reachable logs (rfl : ledger.moment = moment) 1
  obtain ⟨read, changed⟩ := standing moment fun still => still
  exact ⟨told, spared, rewritten 11 shown, read, changed 11 shown⟩

end Tiers

end LayeredCache
