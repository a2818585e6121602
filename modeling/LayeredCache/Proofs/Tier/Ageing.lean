import LayeredCache.Proofs.Tier.Lines

/-! How entries of the soft tier age. A line whose stamps never decrease ends in its live entries, at every moment that no
stamp is ahead of, so that what is cut off its front is dead as long as anything there is. -/

set_option autoImplicit false

namespace LayeredCache

variable {Key Value : Type}

/-- Neither the instant nor the epoch of a moment is ahead of another. -/
structure Moment.Before (earlier later : Moment) : Prop where
  instant : earlier.instant ≤ later.instant
  epoch : earlier.epoch ≤ later.epoch

theorem Moment.Before.refl (moment : Moment) : moment.Before moment :=
  ⟨Nat.le_refl _, UInt64.le_refl _⟩

theorem Moment.Before.trans {first second third : Moment} (start : first.Before second)
    (rest : second.Before third) : first.Before third :=
  ⟨start.instant.trans rest.instant, UInt64.le_trans start.epoch rest.epoch⟩

namespace Stamped

variable {ttl : Option Span} {earlier later : Moment} {older younger stored : Stamped Value}

theorem isLive_iff {moment : Moment} :
    stored.isLive ttl moment = true ↔
      stored.stamp.epoch = moment.epoch ∧
        ∀ lifetime ∈ ttl, moment.instant - stored.stamp.instant < lifetime.nanoseconds := by
  rw [isLive.eq_def, Bool.and_eq_true, beq_iff_eq]
  refine and_congr_right fun _ => ?_
  cases ttl with
  | none => exact ⟨nofun, fun _ => rfl⟩
  | some lifetime =>
      rw [decide_eq_true_eq]
      exact ⟨fun young _ same => Option.some.inj same ▸ young, fun young => young lifetime rfl⟩

/-- What was accepted later outlives what was accepted earlier. -/
theorem isLive_of_older {moment : Moment} (order : older.stamp.Before younger.stamp)
    (past : younger.stamp.Before moment) (live : older.isLive ttl moment = true) :
    younger.isLive ttl moment = true := by
  obtain ⟨epoch, young⟩ := isLive_iff.mp live
  refine isLive_iff.mpr ⟨UInt64.le_antisymm past.epoch (epoch ▸ order.epoch), ?_⟩
  intro lifetime given
  exact (Nat.sub_le_sub_left order.instant _).trans_lt (young lifetime given)

/-- What is live has been live ever since it was accepted. -/
theorem isLive_of_later (past : stored.stamp.Before earlier) (order : earlier.Before later)
    (live : stored.isLive ttl later = true) : stored.isLive ttl earlier = true := by
  obtain ⟨epoch, young⟩ := isLive_iff.mp live
  refine isLive_iff.mpr ⟨UInt64.le_antisymm past.epoch (epoch ▸ order.epoch), ?_⟩
  intro lifetime given
  exact (Nat.sub_le_sub_right order.instant _).trans_lt (young lifetime given)

end Stamped

/-- Entries in the order of their stamps, none of which is ahead of a moment. -/
structure Aged (moment : Moment) (line : List (Key × Stamped Value)) : Prop where
  ordered : line.Pairwise fun earlier later => earlier.2.stamp.Before later.2.stamp
  past : ∀ entry ∈ line, entry.2.stamp.Before moment

namespace Aged

variable {moment later : Moment} {line other : List (Key × Stamped Value)}

theorem sublist (aged : Aged moment line) (included : other.Sublist line) : Aged moment other :=
  ⟨aged.ordered.sublist included, fun entry member => aged.past entry (included.subset member)⟩

theorem mono (aged : Aged moment line) (order : moment.Before later) : Aged later line :=
  ⟨aged.ordered, fun entry member => (aged.past entry member).trans order⟩

/-- Entries accepted at the present moment go to the end. -/
theorem append (aged : Aged moment line) (now : ∀ entry ∈ other, entry.2.stamp = moment) :
    Aged moment (line ++ other) := by
  constructor
  · refine List.pairwise_append.mpr ⟨aged.ordered, ?_, ?_⟩
    · refine List.pairwise_of_forall_mem_list ?_
      intro first member second after
      rw [now first member, now second after]
      exact .refl moment
    · intro first member second after
      rw [now second after]
      exact aged.past first member
  · intro entry member
    rcases List.mem_append.mp member with old | new
    · exact aged.past entry old
    · rw [now entry new]
      exact .refl moment

theorem suffix (aged : Aged moment line) (ttl : Option Span) :
    line.Pairwise fun earlier later =>
      earlier.2.isLive ttl moment = true → later.2.isLive ttl moment = true := by
  refine List.Pairwise.imp_of_mem ?_ aged.ordered
  intro first second _ member order live
  exact Stamped.isLive_of_older order (aged.past second member) live

/-- What is live later is what of the entries live now is live then. -/
theorem filter_later (aged : Aged moment line) (order : moment.Before later) (ttl : Option Span) :
    (line.filter fun entry => entry.2.isLive ttl moment).filter (fun entry => entry.2.isLive ttl later) =
      line.filter fun entry => entry.2.isLive ttl later := by
  rw [List.filter_filter]
  refine List.filter_congr ?_
  intro entry member
  cases live : entry.2.isLive ttl later with
  | false => rfl
  | true => rw [Stamped.isLive_of_later (aged.past entry member) order live, Bool.and_self]

end Aged

namespace SoftTier

variable [DecidableEq Key] {tier : SoftTier Key Value} {moment : Moment} {key : Key} {value : Value}

/-- The live entries with their stamps. -/
def visible (tier : SoftTier Key Value) (moment : Moment) : List (Key × Stamped Value) :=
  tier.toList.filter (tier.isLive moment)

theorem visible_eq (tier : SoftTier Key Value) (moment : Moment) :
    tier.visible moment = tier.toList.filter fun entry => entry.2.isLive tier.ttl moment :=
  rfl

theorem live_eq_visible (tier : SoftTier Key Value) (moment : Moment) :
    tier.live moment = (tier.visible moment).map Stamped.unstamped :=
  rfl

/-- A key shows exactly the value of its live entry. -/
theorem peek?_eq_some_iff :
    tier.peek? moment key = some value ↔ ∃ stamp, (key, ⟨value, stamp⟩) ∈ tier.visible moment := by
  rw [peek?_eq, Option.bind_eq_some_iff]
  constructor
  · rintro ⟨stored, found, shown⟩
    split at shown
    next live =>
      obtain rfl := Option.some.inj shown
      exact ⟨stored.stamp, List.mem_filter.mpr ⟨Bindings.mem_of_find? found, live⟩⟩
    next => cases shown
  · rintro ⟨stamp, member⟩
    obtain ⟨stored, live⟩ := List.mem_filter.mp member
    refine ⟨⟨value, stamp⟩, (Bindings.find?_eq_some_iff tier.keysDistinct).mpr stored, ?_⟩
    exact if_pos live

theorem peek?_congr {other : SoftTier Key Value} (same : tier.visible moment = other.visible moment)
    (key : Key) : tier.peek? moment key = other.peek? moment key := by
  refine Option.ext fun value => ?_
  rw [peek?_eq_some_iff, peek?_eq_some_iff, same]

/-- Purging leaves the visible entries of an aged line. -/
theorem toList_purge (aged : Aged moment tier.toList) :
    (tier.purge moment).2.toList = tier.visible moment := by
  rw [(tier.purge_eq moment).2]
  exact Line.dropWhile_eq_filter (aged.suffix tier.ttl)

/-- The stored entries that are not live, with their stamps. -/
def dead (tier : SoftTier Key Value) (moment : Moment) : List (Key × Stamped Value) :=
  tier.toList.filter fun entry => !tier.isLive moment entry

/-- At a moment, a purge drops all that is dead, in order, and nothing that is live. -/
structure PurgesExactly (tier : SoftTier Key Value) (moment : Moment) : Prop where
  deadFirst : tier.toList = tier.dead moment ++ tier.visible moment
  dropped : (tier.purge moment).1 = (tier.dead moment).map Stamped.unstamped
  kept : (tier.purge moment).2.toList = tier.visible moment
  allLive : (tier.purge moment).2.storedSize = ((tier.purge moment).2.live moment).length

theorem purgesExactly (aged : Aged moment tier.toList) : tier.PurgesExactly moment := by
  have suffix : tier.toList.Pairwise fun earlier later =>
      tier.isLive moment earlier = true → tier.isLive moment later = true := aged.suffix tier.ttl
  have split := Line.takeWhile_eq_filter suffix
  have kept := toList_purge aged
  constructor
  · have whole := @List.takeWhile_append_dropWhile _ (fun entry => !tier.isLive moment entry) tier.toList
    rw [split, Line.dropWhile_eq_filter suffix] at whole
    exact whole.symm
  · rw [(tier.purge_eq moment).1, split]
    rfl
  · exact kept
  · have live : ∀ entry ∈ (tier.purge moment).2.toList, (tier.purge moment).2.isLive moment entry = true := by
      intro entry member
      rw [kept] at member
      exact (List.mem_filter.mp member).2
    rw [SoftTier.live, List.length_map, List.filter_eq_self.mpr live, storedSize, KeyedQueue.size_eq]
    rfl

end SoftTier

end LayeredCache
