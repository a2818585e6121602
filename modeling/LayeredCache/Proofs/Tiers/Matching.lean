import LayeredCache.Proofs.Tier.Ageing
import LayeredCache.Proofs.Tiers.Serving

/-! Tiers that nobody can tell apart. They may store different dead entries, as one of them was purged and the other was
not, but dead entries are the first that either drops, so operations treat what is visible alike. -/

set_option autoImplicit false

namespace LayeredCache

variable {Key Value Result : Type}

namespace Metrics.Tally

variable {left right : Tally}

/-- Counts that agree, but for those of soft entries dropped for want of room or life. -/
def Alike (left right : Tally) : Prop :=
  ∀ counter : Counter, counter ≠ .softOverflows → counter ≠ .softReclaimed →
    left.count counter = right.count counter

theorem Alike.symm (alike : Alike left right) : Alike right left :=
  fun counter overflow reclaimed => (alike counter overflow reclaimed).symm

theorem Alike.record (alike : Alike left right) (recording : Recording) :
    Alike (left.record recording) (right.record recording) :=
  fun counter overflow reclaimed => count_record_congr (alike counter overflow reclaimed) recording

theorem Alike.record_of_eq (alike : Alike left right) {first second : Recording} (same : first = second) :
    Alike (left.record first) (right.record second) :=
  same ▸ alike.record first

theorem Alike.record_if (alike : Alike left right) {first second : Bool} (same : first = second)
    (recording : Recording) :
    Alike (if first then left.record recording else left)
      (if second then right.record recording else right) := by
  subst same
  cases first with
  | false => exact alike
  | true => exact alike.record recording

theorem Alike.softOverflow (alike : Alike left right) : Alike (left.record .softOverflow) right := by
  intro counter overflow reclaimed
  rw [← alike counter overflow reclaimed]
  exact (count_change left .softOverflows counter .increment).trans (if_neg overflow)

theorem Alike.softReclaimed (alike : Alike left right) (count : Count) :
    Alike (left.record (.softReclaimed count)) right := by
  intro counter overflow reclaimed
  rw [← alike counter overflow reclaimed]
  exact (count_change left .softReclaimed counter (.add count)).trans (if_neg reclaimed)

end Metrics.Tally

namespace Tiers

variable [DecidableEq Key] {moment : Moment} {left right : Tiers Key Value}
  {leftTally rightTally : Metrics.Tally} {key : Key} {value : Value}

/-- The same pins, the same primary tier, and the same visible entries in the soft tier. -/
structure Matches (moment : Moment) (left right : Tiers Key Value) : Prop where
  pinned : left.pinned = right.pinned
  primary : left.primary = right.primary
  softReferenceSize : left.soft.capacity = right.soft.capacity
  ttl : left.soft.ttl = right.soft.ttl
  leftAged : Aged moment left.soft.toList
  rightAged : Aged moment right.soft.toList
  visible : left.soft.visible moment = right.soft.visible moment

theorem Matches.symm (alike : Matches moment left right) : Matches moment right left :=
  ⟨alike.pinned.symm, alike.primary.symm, alike.softReferenceSize.symm, alike.ttl.symm, alike.rightAged,
    alike.leftAged, alike.visible.symm⟩

/-- The same result, tiers that match, and counts that agree where they should. -/
structure Matching (moment : Moment) (left right : Result × Tiers Key Value × Metrics.Tally) :
    Prop where
  result : left.1 = right.1
  tiers : Matches moment left.2.1 right.2.1
  tally : left.2.2.Alike right.2.2

theorem Matches.peek? (alike : Matches moment left right) (key : Key) :
    left.soft.peek? moment key = right.soft.peek? moment key :=
  SoftTier.peek?_congr alike.visible key

theorem Matches.containsKey (alike : Matches moment left right) (key : Key) :
    left.containsKey moment key = right.containsKey moment key := by
  rw [Tiers.containsKey, Tiers.containsKey, alike.pinned, alike.primary, SoftTier.contains,
    SoftTier.contains, alike.peek? key]

theorem Matches.entries (alike : Matches moment left right) :
    left.entries moment = right.entries moment := by
  rw [Tiers.entries, Tiers.entries, alike.pinned, alike.primary, SoftTier.live_eq_visible,
    SoftTier.live_eq_visible, alike.visible]

theorem Matches.lengths (alike : Matches moment left right) :
    left.lengths moment = right.lengths moment := by
  rw [Tiers.lengths, Tiers.lengths, alike.pinned, alike.primary, SoftTier.live_eq_visible,
    SoftTier.live_eq_visible, alike.visible]

theorem visible_withoutSoft (tiers : Tiers Key Value) (moment : Moment) (key : Key) :
    (tiers.withoutSoft key).soft.visible moment = Bindings.erase key (tiers.soft.visible moment) := by
  rw [SoftTier.visible, toList_withoutSoft, Bindings.erase, SoftTier.visible, Bindings.erase,
    List.filter_filter, List.filter_filter]
  exact List.filter_congr fun _ _ => Bool.and_comm _ _

theorem Matches.withoutSoft (alike : Matches moment left right) (key : Key) :
    Matches moment (left.withoutSoft key) (right.withoutSoft key) where
  pinned := alike.pinned
  primary := alike.primary
  softReferenceSize := alike.softReferenceSize
  ttl := alike.ttl
  leftAged := by
    rw [toList_withoutSoft]
    exact alike.leftAged.sublist (Bindings.erase_sublist _ _)
  rightAged := by
    rw [toList_withoutSoft]
    exact alike.rightAged.sublist (Bindings.erase_sublist _ _)
  visible := by rw [visible_withoutSoft, visible_withoutSoft, alike.visible]

/-- A dead entry can be taken out of one side alone. -/
theorem Matches.withoutDead (alike : Matches moment left right) (dead : right.soft.peek? moment key = none) :
    Matches moment left (right.withoutSoft key) where
  pinned := alike.pinned
  primary := alike.primary
  softReferenceSize := alike.softReferenceSize
  ttl := alike.ttl
  leftAged := alike.leftAged
  rightAged := (alike.withoutSoft key).rightAged
  visible := by
    have absent : key ∉ (right.soft.visible moment).map Prod.fst := by
      intro member
      obtain ⟨⟨stored, value, stamp⟩, shown, rfl⟩ := List.mem_map.mp member
      have live := SoftTier.peek?_eq_some_iff.mpr ⟨stamp, shown⟩
      rw [dead] at live
      cases live
    rw [visible_withoutSoft, Bindings.erase_eq_self absent, alike.visible]

theorem Matches.later {after : Moment} (alike : Matches moment left right) (order : moment.Before after) :
    Matches after left right where
  pinned := alike.pinned
  primary := alike.primary
  softReferenceSize := alike.softReferenceSize
  ttl := alike.ttl
  leftAged := alike.leftAged.mono order
  rightAged := alike.rightAged.mono order
  visible := by
    have shown : ∀ {tier : SoftTier Key Value}, Aged moment tier.toList →
        tier.visible after = (tier.visible moment).filter (fun entry => entry.2.isLive tier.ttl after) :=
      fun aged => (aged.filter_later order _).symm
    rw [shown alike.leftAged, shown alike.rightAged, alike.visible, alike.ttl]

/-- Purging one side is not noticed. -/
theorem Matches.purge (alike : Matches moment left right) :
    Matches moment { left with soft := (left.soft.purge moment).2 } right where
  pinned := alike.pinned
  primary := alike.primary
  softReferenceSize := alike.softReferenceSize
  ttl := alike.ttl
  leftAged := by
    rw [SoftTier.toList_purge alike.leftAged]
    exact alike.leftAged.sublist List.filter_sublist
  rightAged := alike.rightAged
  visible := by
    rw [← alike.visible, SoftTier.visible, SoftTier.toList_purge alike.leftAged]
    exact List.filter_eq_self.mpr fun entry shown => (List.mem_filter.mp shown).2

/-- Purging one side counts nothing else. -/
theorem purgeSoft_alike (tallies : leftTally.Alike rightTally) (tiers : Tiers Key Value)
    (moment : Moment) :
    (purgeSoft (.still moment) tiers leftTally).2.2.Alike rightTally := by
  simp only [purgeSoft]
  split
  · exact tallies
  · dsimp only
    rw [List.foldl_fixed' fun _ => rfl]
    exact tallies.softReclaimed _

theorem demote_alike (tallies : leftTally.Alike rightTally)
    (room : left.soft.capacity = right.soft.capacity) (instant : Instant) (entry : Key × Value) :
    (demote (.still moment) instant entry left leftTally).2.Alike
      (demote (.still moment) instant entry right rightTally).2 := by
  by_cases disabled : left.soft.capacity = 0
  · rw [demote_disabled disabled, demote_disabled (room ▸ disabled)]
    exact tallies.record _
  · have told := tallies.record (.primaryOverflow true)
    rw [demote_enabled (Nat.pos_of_ne_zero disabled), demote_enabled (Nat.pos_of_ne_zero (room ▸ disabled))]
    dsimp only
    cases (left.soft.accept _ entry.1 entry.2).1 with
    | none =>
        cases (right.soft.accept _ entry.1 entry.2).1 with
        | none => exact told
        | some _ => exact told.symm.softOverflow.symm
    | some _ =>
        cases (right.soft.accept _ entry.1 entry.2).1 with
        | none => exact told.softOverflow
        | some _ => exact told.softOverflow.symm.softOverflow.symm

theorem demoteAll_alike (tallies : leftTally.Alike rightTally)
    (room : left.soft.capacity = right.soft.capacity) (instant : Instant)
    (entries : List (Key × Value)) :
    (demoteAll (.still moment) instant entries left leftTally).2.Alike
      (demoteAll (.still moment) instant entries right rightTally).2 := by
  induction entries generalizing left right leftTally rightTally with
  | nil => exact tallies
  | cons entry rest ih =>
      have kept : (demote (.still moment) instant entry left leftTally).1.soft.capacity =
          (demote (.still moment) instant entry right rightTally).1.soft.capacity := by
        rw [(demote_differ _ instant entry left leftTally).capacity,
          (demote_differ _ instant entry right rightTally).capacity, room]
      rw [demoteAll, demoteAll]
      exact ih (demote_alike tallies room instant entry) kept

/-- Demotions before a still host append entries of the present moment to the line, which is then cut. -/
theorem demoteAll_still (moment : Moment) {tiers : Tiers Key Value} {entries : List (Key × Value)}
    (fits : tiers.soft.toList.length ≤ tiers.soft.capacity) (distinct : (entries.map Prod.fst).Nodup)
    (apart : ∀ key ∈ entries.map Prod.fst, key ∉ tiers.soft.toList.map Prod.fst)
    (tally : Metrics.Tally) :
    (demoteAll (.still moment) moment.instant entries tiers tally).1.soft.toList =
      (tiers.soft.toList ++ entries.map fun entry => (entry.1, Stamped.mk entry.2 moment)).rtake
        tiers.soft.capacity := by
  obtain ⟨demoted, rfl, stamps, stored⟩ := @demoteAll_line _ _ _ _ (.still moment) _
    (Host.keeps_true _) moment.instant entries distinct tiers tally trivial fits apart
  have same : demoted.map ((fun entry => (entry.1, Stamped.mk entry.2 moment)) ∘ Stamped.unstamped) =
      demoted := by
    refine (List.map_congr_left ?_).trans (List.map_id demoted)
    intro entry member
    obtain ⟨world, -, given⟩ := stamps entry member
    have here : entry.2.stamp = moment := given
    rw [← here]
    rfl
  rw [stored, List.map_map, same]

/-- Demotions at the present moment leave the newest of both lines alike. -/
theorem demoteAll_matches (alike : Matches moment left right)
    (leftFits : left.soft.toList.length ≤ left.soft.capacity)
    (rightFits : right.soft.toList.length ≤ right.soft.capacity) {entries : List (Key × Value)}
    (distinct : (entries.map Prod.fst).Nodup)
    (leftApart : ∀ key ∈ entries.map Prod.fst, key ∉ left.soft.toList.map Prod.fst)
    (rightApart : ∀ key ∈ entries.map Prod.fst, key ∉ right.soft.toList.map Prod.fst)
    (leftTally rightTally : Metrics.Tally) :
    Matches moment (demoteAll (.still moment) moment.instant entries left leftTally).1
      (demoteAll (.still moment) moment.instant entries right rightTally).1 := by
  have now : ∀ entry ∈ entries.map fun entry => (entry.1, Stamped.mk entry.2 moment),
      entry.2.stamp = moment := by
    intro entry member
    obtain ⟨source, -, rfl⟩ := List.mem_map.mp member
    rfl
  have leftDiffer := demoteAll_differ (.still moment) moment.instant entries left leftTally
  have rightDiffer := demoteAll_differ (.still moment) moment.instant entries right rightTally
  have leftLine := demoteAll_still moment leftFits distinct leftApart leftTally
  have rightLine := demoteAll_still moment rightFits distinct rightApart rightTally
  have leftAged := alike.leftAged.append now
  have rightAged := alike.rightAged.append now
  exact {
    pinned := leftDiffer.pinned.trans (alike.pinned.trans rightDiffer.pinned.symm)
    primary := leftDiffer.primary.trans (alike.primary.trans rightDiffer.primary.symm)
    softReferenceSize :=
      leftDiffer.capacity.trans (alike.softReferenceSize.trans rightDiffer.capacity.symm)
    ttl := leftDiffer.ttl.trans (alike.ttl.trans rightDiffer.ttl.symm)
    leftAged := by
      rw [leftLine]
      exact leftAged.sublist (Line.rtake_sublist _ _)
    rightAged := by
      rw [rightLine]
      exact rightAged.sublist (Line.rtake_sublist _ _)
    visible := by
      -- what either cut drops is dead as long as anything dead is stored
      have shown := alike.visible
      rw [SoftTier.visible_eq, SoftTier.visible_eq] at shown
      rw [SoftTier.visible_eq, SoftTier.visible_eq, leftLine, rightLine, leftDiffer.ttl, rightDiffer.ttl,
        Line.filter_rtake (leftAged.suffix _), Line.filter_rtake (rightAged.suffix _), List.filter_append,
        List.filter_append, shown, alike.ttl, alike.softReferenceSize] }

section Operations

variable (alike : Matches moment left right) (tallies : leftTally.Alike rightTally)
  (leftValid : left.Valid) (rightValid : right.Valid)

include alike tallies

theorem remove_matching (key : Key) :
    Matching moment (remove (.still moment) key left leftTally)
      (remove (.still moment) key right rightTally) := by
  have called := tallies.record .removeCall
  have without := alike.withoutSoft key
  have removed : ((left.pinned.slot? key).join.or (left.primary.peek? key)).or
      (left.soft.peek? moment key) = ((right.pinned.slot? key).join.or (right.primary.peek? key)).or
      (right.soft.peek? moment key) := by
    rw [alike.pinned, alike.primary, alike.peek? key]
  rw [remove_eq, remove_eq]
  refine ⟨removed, ?_, called.record_if (congrArg Option.isSome removed) .removeFound⟩
  exact { without with
    pinned := by rw [alike.pinned]
    primary := by rw [alike.primary] }

theorem pin_matching (key : Key) :
    Matching moment (pin (.still moment) key left leftTally)
      (pin (.still moment) key right rightTally) := by
  have called := tallies.record .pinCall
  cases slot : right.pinned.slot? key with
  | some held =>
      rw [pin_of_pinned (alike.pinned ▸ slot), pin_of_pinned slot]
      exact ⟨rfl, alike, called.record_if rfl .pinFound⟩
  | none =>
      cases present : right.primary.peek? key with
      | some value =>
          rw [pin_of_primary (alike.pinned ▸ slot) (alike.primary ▸ present), pin_of_primary slot present,
            alike.pinned, alike.primary]
          exact ⟨rfl, { alike with pinned := rfl, primary := rfl }, called.record .pinFound⟩
      | none =>
          have value := alike.peek? key
          rw [pin_of_absent (alike.pinned ▸ slot) (alike.primary ▸ present), pin_of_absent slot present]
          refine ⟨congrArg Option.isSome value, ?_,
            called.record_if (congrArg Option.isSome value) .pinFound⟩
          exact { alike.withoutSoft key with
            pinned := congrArg₂ (fun pinned slot => PinnedTier.pin pinned key slot) alike.pinned value }

theorem setSoftReferenceSize_matching (capacity : Nat) :
    Matches moment (setSoftReferenceSize (.still moment) capacity left leftTally).1
        (setSoftReferenceSize (.still moment) capacity right rightTally).1 ∧
      (setSoftReferenceSize (.still moment) capacity left leftTally).2.Alike
        (setSoftReferenceSize (.still moment) capacity right rightTally).2 := by
  have announced : ∀ {first second : Metrics.Tally} (dropped : List (Key × Value)), first.Alike second →
      (dropped.foldl (fun world entry => announceSoftOverflow (.still moment) entry world) first).Alike
        second := by
    intro first second dropped same
    induction dropped generalizing first with
    | nil => exact same
    | cons entry rest ih => exact ih same.softOverflow
  have leftKept := (left.soft.setCapacity_eq capacity).2
  have rightKept := (right.soft.setCapacity_eq capacity).2
  refine ⟨?_, (announced _ (announced _ tallies).symm).symm⟩
  rw [← List.rtake] at leftKept rightKept
  have shown := alike.visible
  rw [SoftTier.visible_eq, SoftTier.visible_eq] at shown
  exact { alike with
    softReferenceSize := rfl
    leftAged := by
      rw [setSoftReferenceSize, leftKept]
      exact alike.leftAged.sublist (Line.rtake_sublist _ _)
    rightAged := by
      rw [setSoftReferenceSize, rightKept]
      exact alike.rightAged.sublist (Line.rtake_sublist _ _)
    visible := by
      rw [setSoftReferenceSize, setSoftReferenceSize, SoftTier.visible_eq, SoftTier.visible_eq, leftKept,
        rightKept]
      dsimp only [SoftTier.setCapacity]
      rw [Line.filter_rtake (alike.leftAged.suffix _), Line.filter_rtake (alike.rightAged.suffix _), shown] }

include leftValid rightValid

theorem insertPrimary_matching (leftAbsent : key ∉ left.softKeys) (rightAbsent : key ∉ right.softKeys)
    (value : Value) :
    Matching moment (insertPrimary (.still moment) moment.instant key value left leftTally)
      (insertPrimary (.still moment) moment.instant key value right rightTally) := by
  cases present : Bindings.find? key right.primary.toList with
  | none =>
      have leftAbsentPrimary : Bindings.find? key left.primary.toList = none := alike.primary ▸ present
      have surplus := (Line.rdrop_sublist (right.primary.toList ++ [(key, value)])
        right.primary.capacity).map Prod.fst
      have inserted : Matches moment
          { left with primary := (right.primary.insert key value).2 }
          { right with primary := (right.primary.insert key value).2 } :=
        { alike with primary := rfl }
      rw [insertPrimary_absent leftValid.primaryFits leftAbsentPrimary,
        insertPrimary_absent rightValid.primaryFits present, alike.primary]
      refine ⟨rfl, ?_, demoteAll_alike tallies inserted.softReferenceSize _ _⟩
      refine demoteAll_matches inserted leftValid.softFits rightValid.softFits
        (surplus.nodup (PrimaryTier.keysDistinct_concat present)) ?_ ?_ _ _
      · intro other member
        refine leftValid.newLine_apart leftAbsent value other ?_
        rw [alike.primary]
        exact surplus.subset member
      · intro other member
        exact rightValid.newLine_apart rightAbsent value other (surplus.subset member)
  | some old =>
      rw [insertPrimary_present (alike.primary ▸ present), insertPrimary_present present, alike.primary]
      exact ⟨rfl, { alike with primary := rfl }, tallies⟩

theorem get_matching (key : Key) :
    Matching moment (get (.still moment) key left leftTally) (get (.still moment) key right rightTally) := by
  have called := tallies.record .getCall
  have rightPeek := alike.peek? key
  cases pinned : right.pinned.slot? key with
  | some slot =>
      rw [get_of_pinned (alike.pinned ▸ pinned), get_of_pinned pinned]
      exact ⟨rfl, alike, called.record _⟩
  | none =>
      cases present : right.primary.peek? key with
      | some value =>
          rw [get_of_primary (alike.pinned ▸ pinned) (alike.primary ▸ present), get_of_primary pinned present,
            alike.primary]
          exact ⟨rfl, { alike with primary := rfl }, called.record _⟩
      | none =>
          cases live : right.soft.peek? moment key with
          | some value =>
              rw [live] at rightPeek
              rw [@get_of_soft _ _ _ _ left key (.still moment) leftTally value (alike.pinned ▸ pinned)
                (alike.primary ▸ present) rightPeek,
                @get_of_soft _ _ _ _ right key (.still moment) rightTally value pinned present live]
              have inserted := insertPrimary_matching (alike.withoutSoft key)
                ((called.record .getSoftHit).record .softPromotion) (leftValid.withoutSoft key)
                (rightValid.withoutSoft key) (Valid.absent_withoutSoft left key)
                (Valid.absent_withoutSoft right key) value
              exact ⟨rfl, inserted.tiers, inserted.tally⟩
          | none =>
              rw [live] at rightPeek
              rw [@get_of_missing _ _ _ _ left key (.still moment) leftTally (alike.pinned ▸ pinned)
                (alike.primary ▸ present) rightPeek,
                @get_of_missing _ _ _ _ right key (.still moment) rightTally pinned present live]
              exact ⟨rfl, alike.withoutSoft key, called.record .getMiss⟩

theorem put_matching (key : Key) (value : Value) :
    Matching moment (put (.still moment) key value left leftTally)
      (put (.still moment) key value right rightTally) := by
  have called := tallies.record .putCall
  cases pinned : right.pinned.slot? key with
  | some slot =>
      rw [put_of_pinned (alike.pinned ▸ pinned), put_of_pinned pinned, alike.pinned]
      exact ⟨rfl, { alike with pinned := rfl }, called.record .putPinned⟩
  | none =>
      have inserted := insertPrimary_matching (alike.withoutSoft key) called
        (leftValid.withoutSoft key) (rightValid.withoutSoft key) (Valid.absent_withoutSoft left key)
        (Valid.absent_withoutSoft right key) value
      have previous := congrArg₂ Option.or inserted.result (alike.peek? key)
      rw [put_of_unpinned (alike.pinned ▸ pinned), put_of_unpinned pinned]
      exact ⟨previous, inserted.tiers, inserted.tally.record_of_eq
        (congrArg (fun previous : Option Value =>
          if previous.isSome then Metrics.Recording.putUpdate else .putNew) previous)⟩

theorem unpin_matching (key : Key) :
    Matching moment (unpin (.still moment) key left leftTally)
      (unpin (.still moment) key right rightTally) := by
  have called := tallies.record .unpinCall
  have dropped : Matches moment { left with pinned := (left.pinned.unpin key).2 }
      { right with pinned := (right.pinned.unpin key).2 } :=
    { alike with pinned := by rw [alike.pinned] }
  cases slot : right.pinned.slot? key with
  | none =>
      rw [unpin_of_unpinned (alike.pinned ▸ slot), unpin_of_unpinned slot]
      exact ⟨rfl, alike, called⟩
  | some held =>
      have leftSlot : left.pinned.slot? key = some held := alike.pinned ▸ slot
      cases held with
      | none =>
          rw [unpin_of_empty leftSlot, unpin_of_empty slot]
          exact ⟨rfl, dropped, called.record .unpinFound⟩
      | some value =>
          have inserted := insertPrimary_matching dropped called (leftValid.unpinned key)
            (rightValid.unpinned key) (leftValid.softAbsent_of_pinned leftSlot)
            (rightValid.softAbsent_of_pinned slot) value
          rw [unpin_of_valued leftSlot, unpin_of_valued slot]
          exact ⟨rfl, inserted.tiers, inserted.tally.record .unpinFound⟩

theorem putEntry_matching (replaceExisting : Bool) (entry : Entry Key Value) :
    Matches moment (putEntry (.still moment) replaceExisting entry left leftTally).1
        (putEntry (.still moment) replaceExisting entry right rightTally).1 ∧
      (putEntry (.still moment) replaceExisting entry left leftTally).2.Alike
        (putEntry (.still moment) replaceExisting entry right rightTally).2 := by
  have same : left.containsKey ((Host.still moment : Host _ Key Value).moment leftTally) entry.key =
      right.containsKey ((Host.still moment : Host _ Key Value).moment rightTally) entry.key :=
    alike.containsKey entry.key
  simp only [putEntry, same]
  split
  · exact ⟨alike, tallies⟩
  · split
    · have pinned := pin_matching alike tallies entry.key
      have put := put_matching pinned.tiers pinned.tally (leftValid.pin _ entry.key _)
        (rightValid.pin _ entry.key _) entry.key entry.value
      exact ⟨put.tiers, put.tally⟩
    · have put := put_matching alike tallies leftValid rightValid entry.key entry.value
      exact ⟨put.tiers, put.tally⟩

theorem putAll_matching (replaceExisting : Bool) (entries : List (Entry Key Value)) :
    Matches moment (putAll (.still moment) replaceExisting entries left leftTally).1
        (putAll (.still moment) replaceExisting entries right rightTally).1 ∧
      (putAll (.still moment) replaceExisting entries left leftTally).2.Alike
        (putAll (.still moment) replaceExisting entries right rightTally).2 := by
  induction entries generalizing left right leftTally rightTally with
  | nil => exact ⟨alike, tallies⟩
  | cons entry rest ih =>
      obtain ⟨matched, counted⟩ := putEntry_matching alike tallies leftValid rightValid replaceExisting entry
      rw [putAll, putAll]
      exact ih matched counted (leftValid.putEntry _ replaceExisting entry _)
        (rightValid.putEntry _ replaceExisting entry _)

theorem setCacheSize_matching (capacity : Nat) :
    Matches moment (setCacheSize (.still moment) capacity left leftTally).1
        (setCacheSize (.still moment) capacity right rightTally).1 ∧
      (setCacheSize (.still moment) capacity left leftTally).2.Alike
        (setCacheSize (.still moment) capacity right rightTally).2 := by
  have surplus := (Line.rdrop_sublist right.primary.toList capacity).map Prod.fst
  have resized : Matches moment
      { left with primary := (right.primary.setCapacity capacity).2 }
      { right with primary := (right.primary.setCapacity capacity).2 } :=
    { alike with primary := rfl }
  rw [setCacheSize_eq, setCacheSize_eq, alike.primary]
  refine ⟨?_, demoteAll_alike tallies resized.softReferenceSize _ _⟩
  refine demoteAll_matches resized leftValid.softFits rightValid.softFits
    (surplus.nodup right.primary.keysDistinct) ?_ ?_ _ _
  · intro other member
    refine leftValid.primarySoft other ?_
    rw [primaryKeys, alike.primary]
    exact surplus.subset member
  · intro other member
    exact rightValid.primarySoft other (surplus.subset member)

theorem operate_matching (operation : Operation Key Value) (kept : operation ≠ .purgeSoft) :
    Matching moment (operate (.still moment) operation left leftTally)
      (operate (.still moment) operation right rightTally) := by
  cases operation with
  | put key value =>
      have put := put_matching alike tallies leftValid rightValid key value
      exact ⟨congrArg Answer.value put.result, put.tiers, put.tally⟩
  | get key =>
      have got := get_matching alike tallies leftValid rightValid key
      exact ⟨congrArg Answer.value got.result, got.tiers, got.tally⟩
  | remove key =>
      have removed := remove_matching alike tallies key
      exact ⟨congrArg Answer.value removed.result, removed.tiers, removed.tally⟩
  | pin key =>
      have pinned := pin_matching alike tallies key
      exact ⟨congrArg Answer.flag pinned.result, pinned.tiers, pinned.tally⟩
  | unpin key =>
      have unpinned := unpin_matching alike tallies leftValid rightValid key
      exact ⟨congrArg Answer.flag unpinned.result, unpinned.tiers, unpinned.tally⟩
  | putAll entries replaceExisting =>
      obtain ⟨matched, counted⟩ := putAll_matching alike tallies leftValid rightValid replaceExisting entries
      exact ⟨rfl, matched, counted⟩
  | clear =>
      refine ⟨rfl, ?_, tallies.record .clear⟩
      exact { alike with
        pinned := rfl
        primary := congrArg PrimaryTier.clear alike.primary
        leftAged := ⟨.nil, nofun⟩
        rightAged := ⟨.nil, nofun⟩
        visible := rfl }
  | setCacheSize capacity =>
      obtain ⟨matched, counted⟩ := setCacheSize_matching alike tallies leftValid rightValid capacity
      exact ⟨rfl, matched, counted⟩
  | setSoftReferenceSize capacity =>
      obtain ⟨matched, counted⟩ := setSoftReferenceSize_matching alike tallies capacity
      exact ⟨rfl, matched, counted⟩
  | purgeSoft => exact absurd rfl kept

/-- Purging first makes no difference. -/
theorem operatePurged_matching (operation : Operation Key Value) (kept : operation ≠ .purgeSoft) :
    Matching moment (operatePurged (.still moment) operation left leftTally)
      (operate (.still moment) operation right rightTally) := by
  have purged : Matches moment (purgeSoft (.still moment) left leftTally).2.1 right := by
    rw [purgeSoft_snd]
    exact alike.purge
  exact operate_matching purged (purgeSoft_alike tallies left moment)
    (leftValid.purgeSoft (.still moment) leftTally) rightValid operation kept

/-- Neither does looking a key up first. -/
theorem serve_get_matching (key : Key) :
    Matching moment (serve (.still moment) (.get key) left leftTally)
      (operate (.still moment) (.get key) right rightTally) := by
  have called := tallies.record .getCall
  have written := operatePurged_matching alike tallies leftValid rightValid (.get key) nofun
  cases pinned : right.pinned.slot? key with
  | some slot =>
      have leftPinned : left.pinned.slot? key = some slot := alike.pinned ▸ pinned
      simp only [operate, get_of_pinned pinned]
      cases slot with
      | none =>
          simp only [serve, lookup, leftPinned]
          exact ⟨rfl, alike, called.record .getMiss⟩
      | some value =>
          simp only [serve, lookup, leftPinned]
          exact ⟨rfl, alike, called.record .getPinnedHit⟩
  | none =>
      have leftPinned : left.pinned.slot? key = none := alike.pinned ▸ pinned
      cases present : right.primary.peek? key with
      | some value =>
          cases lru : right.primary.order.isLru with
          | true =>
              simp only [serve, lookup, leftPinned, alike.primary, present, lru, ↓reduceIte]
              exact written
          | false =>
              have untouched : right.primary.touch key = right.primary := by
                rw [PrimaryTier.touch, lru]
                rfl
              simp only [operate, get_of_primary pinned present, untouched]
              simp only [serve, lookup, leftPinned, alike.primary, present, lru, Bool.false_eq_true, ↓reduceIte]
              exact ⟨rfl, alike, called.record .getPrimaryHit⟩
      | none =>
          have leftPeek := alike.peek? key
          cases live : right.soft.peek? moment key with
          | some value =>
              rw [live] at leftPeek
              have shown : left.soft.contains ((Host.still moment : Host _ Key Value).moment leftTally) key =
                  true := congrArg Option.isSome leftPeek
              simp only [serve, lookup, leftPinned, alike.primary, present, shown, ↓reduceIte]
              exact written
          | none =>
              rw [live] at leftPeek
              have hidden : left.soft.contains ((Host.still moment : Host _ Key Value).moment leftTally) key =
                  false := congrArg Option.isSome leftPeek
              simp only [operate,
                @get_of_missing _ _ _ _ right key (.still moment) rightTally pinned present live]
              simp only [serve, lookup, leftPinned, alike.primary, present, hidden, Bool.false_eq_true,
                ↓reduceIte]
              exact ⟨rfl, alike.withoutDead live, called.record .getMiss⟩

theorem serve_matching (operation : Operation Key Value) (kept : operation ≠ .purgeSoft) :
    Matching moment (serve (.still moment) operation left leftTally)
      (operate (.still moment) operation right rightTally) := by
  cases operation with
  | get key => exact serve_get_matching alike tallies leftValid rightValid key
  | purgeSoft => exact absurd rfl kept
  | put _ _ | remove _ | pin _ | unpin _ | putAll _ _ | clear | setCacheSize _
  | setSoftReferenceSize _ => exact operatePurged_matching alike tallies leftValid rightValid _ kept

end Operations

end Tiers

end LayeredCache
