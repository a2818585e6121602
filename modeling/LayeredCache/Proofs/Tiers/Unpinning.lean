import LayeredCache.Proofs.Tiers.OneLine
import LayeredCache.Proofs.Tiers.Touching

/-! A key that is pinned and let go of again. The pin takes the key out of the bounded tiers, which leaves them room
for its value, so that nothing has to leave the cache when the value comes back: at most the oldest entry of
the primary tier moves on to the place that the value had in the soft tier. -/

set_option autoImplicit false

namespace LayeredCache

variable {World Key Value : Type} [DecidableEq Key]

theorem PinnedTier.unpin_pin {tier : PinnedTier Key Value} {key : Key} (unpinned : tier.slot? key = none)
    (slot : Option Value) : ((tier.pin key slot).unpin key).2 = tier :=
  congrArg PinnedTier.mk (Directory.erase_insert_of_absent unpinned slot)

namespace Tiers

variable {host : Host World Key Value} {holds : World → Prop} {log : World → List (Event Key Value)}
  {tiers : Tiers Key Value} {key other : Key} {value : Value} {moment : Moment} {world : World}

/-- Tiers from whose bounded tiers a key is removed, live or not. -/
def withoutBounded (tiers : Tiers Key Value) (key : Key) : Tiers Key Value :=
  { tiers.withoutSoft key with primary := (tiers.primary.remove key).2 }

section Removed

theorem primary_withoutBounded (tiers : Tiers Key Value) (key : Key) :
    (tiers.withoutBounded key).primary.toList = Bindings.erase key tiers.primary.toList :=
  (tiers.primary.remove_eq key).2

theorem line_withoutBounded (tiers : Tiers Key Value) (key : Key) :
    (tiers.withoutBounded key).line = Bindings.erase key tiers.line := by
  rw [erase_line, line, primary_withoutBounded]
  exact congrArg (fun soft => soft.map Stamped.unstamped ++ _) (toList_withoutSoft tiers key)

theorem Valid.withoutBounded (valid : tiers.Valid) (key : Key) : (tiers.withoutBounded key).Valid := by
  refine (valid.withoutSoft key).narrow (fun _ unpinned => unpinned) ?_ ?_ (fun _ member => member)
    (valid.withoutSoft key).softFits
  · intro other member
    rw [primaryKeys, primary_withoutBounded] at member
    exact (Bindings.mem_keys_erase.mp member).1
  · rw [primary_withoutBounded]
    exact (Bindings.length_erase_le key _).trans valid.primaryFits

theorem primaryAbsent_withoutBounded (tiers : Tiers Key Value) (key : Key) :
    (tiers.withoutBounded key).primary.peek? key = none := by
  rw [PrimaryTier.peek?_eq, primary_withoutBounded, Bindings.find?_erase, if_pos rfl]

theorem value?_withoutBounded (apart : other ≠ key) :
    (tiers.withoutBounded key).value? moment other = tiers.value? moment other := by
  have primary : (tiers.withoutBounded key).primary.peek? other = tiers.primary.peek? other := by
    rw [PrimaryTier.peek?_eq, primary_withoutBounded, Bindings.find?_erase, if_neg apart, ← PrimaryTier.peek?_eq]
  have soft : (tiers.withoutBounded key).soft.peek? moment other = tiers.soft.peek? moment other := by
    have taken := peek?_withoutSoft tiers moment key other
    rw [if_neg apart] at taken
    exact taken
  rw [value?, value?, primary, soft]
  rfl

theorem value?_withoutBounded_self (unpinned : tiers.pinned.slot? key = none) (moment : Moment) :
    (tiers.withoutBounded key).value? moment key = none := by
  have soft := peek?_withoutSoft tiers moment key key
  rw [if_pos rfl] at soft
  have without : (tiers.withoutBounded key).pinned.slot? key = none := unpinned
  rw [value?_of_unpinned without, primaryAbsent_withoutBounded, Option.none_or]
  exact soft

/-- A value that is taken out of the bounded tiers leaves room there. -/
theorem room_withoutBounded (valid : tiers.Valid) (unpinned : tiers.pinned.slot? key = none)
    (shown : tiers.value? moment key = some value) : (tiers.withoutBounded key).HasRoom := by
  have listed : (Bindings.find? key tiers.line).isSome = true := by
    rw [Bindings.find?_isSome_iff, mem_line_keys, List.mem_append]
    rw [value?_of_unpinned unpinned] at shown
    cases present : tiers.primary.peek? key with
    | some old => exact .inl (Valid.primaryKeys_of_peek present)
    | none =>
        rw [present, Option.none_or] at shown
        obtain ⟨stamp, member⟩ := SoftTier.peek?_eq_some_iff.mp shown
        exact .inr (List.mem_map_of_mem (List.mem_filter.mp member).1)
  have within : tiers.line.length ≤ tiers.cacheSize + tiers.softReferenceSize := valid.length_line
  have some : 0 < tiers.line.length := by
    obtain ⟨stored, found⟩ := Option.isSome_iff_exists.mp listed
    exact List.length_pos_of_mem (Bindings.mem_of_find? found)
  show (tiers.withoutBounded key).line.length < tiers.cacheSize + tiers.softReferenceSize
  rw [line_withoutBounded, Bindings.length_erase valid.line_distinct, if_pos listed]
  omega

end Removed

/-- A pin takes the key out of the bounded tiers and keeps the value that it shows. -/
theorem pin_of_unpinned (valid : tiers.Valid) (unpinned : tiers.pinned.slot? key = none) (host : Host World Key Value)
    (world : World) :
    pin host key tiers world =
      let called := host.record .pinCall world
      let shown := tiers.value? (host.moment called) key
      (shown.isSome, { tiers.withoutBounded key with pinned := tiers.pinned.pin key shown },
        if shown.isSome then host.record .pinFound called else called) := by
  dsimp only
  rw [value?_of_unpinned unpinned]
  cases present : tiers.primary.peek? key with
  | some value =>
      have noSoft : Bindings.find? key tiers.soft.toList = none :=
        Bindings.find?_eq_none_iff.mpr (valid.softAbsent_of_peek present)
      have untouched : tiers.withoutSoft key = tiers := by
        rw [withoutSoft, KeyedQueue.remove_of_absent noSoft]
      rw [pin_of_primary unpinned present, withoutBounded, untouched]
      rfl
  | none =>
      have untouched : (tiers.primary.remove key).2 = tiers.primary := by
        rw [PrimaryTier.peek?_eq] at present
        rw [PrimaryTier.remove, KeyedQueue.remove_of_absent present]
      rw [pin_of_absent unpinned present, withoutBounded, untouched]
      rfl

theorem insertPrimary_with_room (absent : tiers.primary.peek? key = none)
    (room : tiers.primary.toList.length < tiers.cacheSize) (host : Host World Key Value) (instant : Instant)
    (value : Value) (world : World) :
    insertPrimary host instant key value tiers world =
      (none, { tiers with primary := (tiers.primary.insert key value).2 }, world) := by
  rw [PrimaryTier.peek?_eq] at absent
  rcases PrimaryTier.insert_new (Nat.le_of_lt room) absent value with ⟨-, outcome, -⟩ | ⟨ejected, -, gives⟩
  · simp only [insertPrimary, outcome]
  · exact absurd room (Nat.not_lt.mpr gives.full)

/-- A value that comes back to the tiers from which it was taken shows again, and so does every other. -/
theorem value?_returned (logs : host.Logs holds log) (held : holds world)
    (stands : ∀ {world}, holds world → host.moment world = moment) (valid : tiers.Valid)
    (unpinned : tiers.pinned.slot? key = none) (shown : tiers.value? moment key = some value) (other : Key) :
    (insertPrimary host moment.instant key value (tiers.withoutBounded key) world).2.1.value? moment other =
      tiers.value? moment other := by
  have absent := primaryAbsent_withoutBounded tiers key
  have own : ∀ after : Tiers Key Value, after.value? moment other =
      (if other = key then some value else (tiers.withoutBounded key).value? moment other) →
        after.value? moment other = tiers.value? moment other := by
    intro after placed
    rw [placed]
    split
    next same => rw [same, shown]
    next apart => exact value?_withoutBounded apart
  apply own
  cases present : tiers.primary.peek? key with
  | some old =>
      -- The place that the key has left in the primary tier takes the value, whatever the lifetime of soft entries.
      have listed : (Bindings.find? key tiers.primary.toList).isSome = true := by
        rw [← PrimaryTier.peek?_eq, present]
        rfl
      have room : (tiers.withoutBounded key).primary.toList.length < (tiers.withoutBounded key).cacheSize := by
        have fits := valid.primaryFits
        have some : 0 < tiers.primary.toList.length := by
          obtain ⟨stored, found⟩ := Option.isSome_iff_exists.mp listed
          exact List.length_pos_of_mem (Bindings.mem_of_find? found)
        show _ < tiers.primary.capacity
        rw [primary_withoutBounded, Bindings.length_erase tiers.primary.keysDistinct, if_pos listed]
        omega
      have stored := absent
      rw [PrimaryTier.peek?_eq] at stored
      obtain ⟨-, -, line⟩ | ⟨ejected, -, gives⟩ := PrimaryTier.insert_new (Nat.le_of_lt room) stored value
      · have peeked : ((tiers.withoutBounded key).primary.insert key value).2.peek? other =
            if other = key then some value else (tiers.withoutBounded key).primary.peek? other := by
          rw [PrimaryTier.peek?_eq, line, Bindings.find?_append, ← PrimaryTier.peek?_eq, Bindings.find?, Bindings.find?]
          split
          next same => rw [← same, absent, if_pos rfl, Option.none_or]
          next apart => rw [if_neg (Ne.symm apart), Option.or_none]
        rw [insertPrimary_with_room absent room, value?, peeked]
        split
        next same =>
          rw [same, show (tiers.withoutBounded key).pinned = tiers.pinned from rfl, PinnedTier.value?, unpinned]
          rfl
        next => rfl
      · exact absurd room (Nat.not_lt.mpr gives.full)
  | none =>
      have live : tiers.soft.peek? moment key = some value := by
        rw [value?_of_unpinned unpinned, present, Option.none_or] at shown
        exact shown
      have lasting : ∀ fresh : Value, Stamped.isLive tiers.soft.ttl moment ⟨fresh, moment⟩ = true := isLive_now live
      exact value?_insertPrimary logs held stands (valid.withoutBounded key) unpinned absent
        (Valid.absent_withoutSoft tiers key) (room_withoutBounded valid unpinned shown) lasting value other

/-- With room left, an entry that comes in is appended to the line of both tiers. -/
theorem line_insertPrimary (valid : tiers.Valid) (absent : tiers.primary.peek? key = none)
    (softAbsent : key ∉ tiers.softKeys) (room : tiers.HasRoom) (host : Host World Key Value) (instant : Instant)
    (value : Value) (world : World) :
    (insertPrimary host instant key value tiers world).2.1.line = tiers.line ++ [(key, value)] := by
  rw [PrimaryTier.peek?_eq] at absent
  have settles := valid.settles_insertPrimary host.keeps_true instant value world trivial absent softAbsent
  have fits : (tiers.line ++ [(key, value)]).length ≤ tiers.primary.capacity + tiers.soft.capacity := by
    rw [List.length_append]
    exact room
  rw [settles.line valid.softFits, ← List.append_assoc]
  exact Line.rtake_of_fits fits

theorem newest_insertPrimary (valid : tiers.Valid) (absent : tiers.primary.peek? key = none)
    (softAbsent : key ∉ tiers.softKeys) (enabled : 0 < tiers.cacheSize) (host : Host World Key Value)
    (instant : Instant) (value : Value) (world : World) :
    (insertPrimary host instant key value tiers world).2.1.primary.toList.getLast? = some (key, value) := by
  rw [PrimaryTier.peek?_eq] at absent
  have settles := valid.settles_insertPrimary host.keeps_true instant value world trivial absent softAbsent
  have single : [(key, value)].length ≤ tiers.primary.capacity := enabled
  rw [settles.primary, Line.rtake_append_of_le _ single, List.getLast?_append]
  rfl

/-- From one state to another nothing is lost: pins and values are what they were, all that is told is what moves on
to the soft tier, and the bounded tiers keep their order, in which at most one key has become the newest. -/
structure Restores (log : World → List (Event Key Value)) (moment : Moment) (key : Key)
    (before after : Tiers Key Value × World) : Prop where
  pinned : after.1.pinned = before.1.pinned
  shown : ∀ other, after.1.value? moment other = before.1.value? moment other
  told : ∃ events, log after.2 = log before.2 ++ events ∧
    ∀ event ∈ events, ∃ key value, event = .primaryOverflow key value true
  others : Bindings.erase key after.1.line = Bindings.erase key before.1.line
  newest : ∀ value, before.1.value? moment key = some value → 0 < before.1.cacheSize →
    after.1.primary.toList.getLast? = some (key, value)

theorem restores_withoutBounded {later : World} (unpinned : tiers.pinned.slot? key = none)
    (unseen : tiers.value? moment key = none) (same : log later = log world) :
    Restores log moment key (tiers, world) (tiers.withoutBounded key, later) where
  pinned := rfl
  shown other := by
    by_cases apart : other = key
    · rw [apart, value?_withoutBounded_self unpinned, unseen]
    · exact value?_withoutBounded apart
  told := ⟨[], same.trans (List.append_nil _).symm, nofun⟩
  others := by rw [line_withoutBounded, Bindings.erase_erase]
  newest value shown := by
    rw [unseen] at shown
    cases shown

theorem restores_returned {later : World} (logs : host.Logs holds log) (held : holds later)
    (stands : ∀ {world}, holds world → host.moment world = moment) (valid : tiers.Valid)
    (unpinned : tiers.pinned.slot? key = none) (shown : tiers.value? moment key = some value)
    (same : log later = log world) :
    Restores log moment key (tiers, world)
      (insertPrimary host moment.instant key value (tiers.withoutBounded key) later).2 := by
  have without := valid.withoutBounded key
  have absent := primaryAbsent_withoutBounded tiers key
  have softAbsent := Valid.absent_withoutSoft tiers key
  have room := room_withoutBounded valid unpinned shown
  obtain ⟨-, events, told, demoted⟩ :=
    insertPrimary_spares logs held without absent softAbsent room moment.instant value
  refine ⟨pinned_insertPrimary _ _ _ _ _ _, value?_returned logs held stands valid unpinned shown,
    ⟨events, by rw [told, same], demoted⟩, ?_, ?_⟩
  · rw [line_insertPrimary without absent softAbsent room, line_withoutBounded, Bindings.erase_append,
      Bindings.erase_erase]
    simp [Bindings.erase]
  · intro own found enabled
    obtain rfl : value = own := Option.some.inj (shown.symm.trans found)
    exact newest_insertPrimary without absent softAbsent enabled host moment.instant value later

/-- The tiers once a key is pinned that was not. -/
def withPinned (tiers : Tiers Key Value) (moment : Moment) (key : Key) : Tiers Key Value :=
  { tiers.withoutBounded key with pinned := tiers.pinned.pin key (tiers.value? moment key) }

theorem slot?_withPinned (tiers : Tiers Key Value) (moment : Moment) (key : Key) :
    (tiers.withPinned moment key).pinned.slot? key = some (tiers.value? moment key) := by
  rw [withPinned, PinnedTier.slot?_pin, if_pos rfl]

theorem unpin_restores {later : World} (logs : host.Logs holds log) (held : holds later)
    (stands : ∀ {world}, holds world → host.moment world = moment) (valid : tiers.Valid)
    (unpinned : tiers.pinned.slot? key = none) (same : log later = log world) :
    (unpin host key (tiers.withPinned moment key) later).1 = true ∧
      Restores log moment key (tiers, world) (unpin host key (tiers.withPinned moment key) later).2 := by
  have called := logs.keeps.record .unpinCall held
  have told := (logs.record .unpinCall held).trans same
  have undone : ({ tiers.withPinned moment key with
      pinned := ((tiers.withPinned moment key).pinned.unpin key).2 } : Tiers Key Value) = tiers.withoutBounded key := by
    rw [withPinned]
    dsimp only
    rw [PinnedTier.unpin_pin unpinned]
    rfl
  have slot := slot?_withPinned tiers moment key
  cases shown : tiers.value? moment key with
  | none =>
      rw [shown] at slot
      rw [unpin_of_empty slot, undone]
      exact ⟨rfl, restores_withoutBounded unpinned shown ((logs.record _ called).trans told)⟩
  | some value =>
      rw [shown] at slot
      have instant : host.clock (host.record .unpinCall later) = moment.instant := congrArg Moment.instant (stands called)
      have kept := insertPrimary_keeps logs.keeps called moment.instant key value (tiers.withoutBounded key)
      have returned := restores_returned logs called stands valid unpinned shown told
      obtain ⟨events, added, demoted⟩ := returned.told
      rw [unpin_of_valued slot, undone]
      dsimp only
      rw [instant]
      exact ⟨rfl, returned.pinned, returned.shown, ⟨events, (logs.record _ kept).trans added, demoted⟩,
        returned.others, returned.newest⟩

omit [DecidableEq Key] in
theorem pinFound_keeps (logs : host.Logs holds log) (held : holds world) (found : Bool) :
    holds (if found then host.record .pinFound world else world) ∧
      log (if found then host.record .pinFound world else world) = log world := by
  cases found with
  | true => exact ⟨logs.keeps.record _ held, logs.record _ held⟩
  | false => exact ⟨held, rfl⟩

/-- Of a key that is not pinned, a pin tells whether the key shows a value, and a second pin tells the same and is only
counted. Unpinning it then finds it pinned, once, and nothing is lost between the two. -/
theorem pin_then_unpin_loses_nothing (reachable : tiers.Reachable) (logs : host.Logs holds log) (held : holds world)
    (stands : ∀ {world}, holds world → host.moment world = moment) (unpinned : tiers.isPinned key = false) :
    let once := pin host key tiers world
    let twice := pin host key once.2.1 once.2.2
    let freed := unpin host key once.2.1 once.2.2
    (once.1 = tiers.containsKey moment key ∧ log once.2.2 = log world) ∧
    (∃ counted, log counted = log world ∧ twice = (once.1, once.2.1, counted)) ∧
    freed.1 = true ∧ Restores log moment key (tiers, world) freed.2 ∧
    unpin host key freed.2.1 freed.2.2 = (false, freed.2.1, host.record .unpinCall freed.2.2) := by
  have valid := reachable.valid
  have free : tiers.pinned.slot? key = none := by
    rwa [isPinned_eq, Option.isSome_eq_false_iff, Option.isNone_iff_eq_none] at unpinned
  have called := logs.keeps.record .pinCall held
  obtain ⟨counted, kept, same, first⟩ : ∃ counted, holds counted ∧ log counted = log world ∧
      pin host key tiers world = ((tiers.value? moment key).isSome, tiers.withPinned moment key, counted) := by
    have outcome := pin_of_unpinned valid free host world
    dsimp only at outcome
    rw [stands called] at outcome
    obtain ⟨kept, same⟩ := pinFound_keeps logs called (tiers.value? moment key).isSome
    exact ⟨_, kept, same.trans (logs.record _ held), outcome⟩
  rw [first]
  intro once twice freed
  obtain ⟨found, restored⟩ := unpin_restores logs kept stands valid free same
  refine ⟨⟨isSome_value? tiers moment key, same⟩, ?_, found, restored, ?_⟩
  · obtain ⟨-, again⟩ := pinFound_keeps logs (logs.keeps.record .pinCall kept) (tiers.value? moment key).isSome
    exact ⟨_, again.trans ((logs.record _ kept).trans same),
      pin_of_pinned (slot?_withPinned tiers moment key) host counted⟩
  · apply unpin_of_unpinned
    rw [restored.pinned]
    exact free

/-- A value that is pinned out of a full soft tier and unpinned changes places with the oldest primary entry. -/
theorem unpinned_value_changes_places :
    ∃ (tiers : Tiers Nat Nat) (ledger : Ledger Nat Nat),
      tiers.line = [(1, 10), (2, 20), (3, 30)] ∧ tiers.cacheSize = 2 ∧
      (pin .ledger 1 tiers ledger).1 = true ∧
      Restores Ledger.events ⟨0, 0⟩ 1 (tiers, ledger)
        (unpin .ledger 1 (pin .ledger 1 tiers ledger).2.1 (pin .ledger 1 tiers ledger).2.2).2 := by
  obtain ⟨tiers, reachable, line, room, found, free⟩ : ∃ tiers : Tiers Nat Nat, tiers.Reachable ∧
      tiers.line = [(1, 10), (2, 20), (3, 30)] ∧ tiers.cacheSize = 2 ∧ tiers.containsKey ⟨0, 0⟩ 1 = true ∧
      tiers.isPinned 1 = false :=
    ⟨_, (Reachable.fresh .lru 2 1 none).foldl .ledger (.start ⟨0, 0⟩) [.put 1 10, .put 2 20, .put 3 30],
      by decide +kernel, by decide +kernel, by decide +kernel, by decide +kernel⟩
  obtain ⟨⟨told, -⟩, -, -, restored, -⟩ :=
    pin_then_unpin_loses_nothing reachable (Ledger.logs ⟨0, 0⟩) (rfl : (Ledger.start ⟨0, 0⟩).moment = _)
      (fun still => still) free
  exact ⟨tiers, .start ⟨0, 0⟩, line, room, told.trans found, restored⟩

end Tiers

end LayeredCache
