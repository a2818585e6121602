import LayeredCache.Proofs.Tier.Ageing
import LayeredCache.Proofs.Tiers.Contents
import LayeredCache.Proofs.Tiers.Departures
import Mathlib.Data.List.Forall2

/-! What tiers have lost in an operation, and what was told of it. The line of both bounded tiers, with the entries lost
put ahead of what is left, is the line there was before, but for the key at work; and the events told name the entries
lost, one of each, in order. -/

set_option autoImplicit false

namespace LayeredCache

variable {World Key Value : Type}

/-- What an event tells of an entry that leaves the cache: its key, and its value where the event has one. -/
structure Departure (Key Value : Type) where
  key : Key
  value? : Option Value

/-- A departure tells of an entry. -/
structure Departure.Names (departure : Departure Key Value) (key : Key) (value : Value) : Prop where
  key : departure.key = key
  value : ∀ told ∈ departure.value?, told = value

def Event.departure? : Event Key Value → Option (Departure Key Value)
  | .primaryOverflow key value false | .softOverflow key value => some ⟨key, some value⟩
  | .softReclaimed key => some ⟨key, none⟩
  | .primaryOverflow _ _ true => none

def departures (events : List (Event Key Value)) : List (Departure Key Value) :=
  events.filterMap Event.departure?

/-- The departures among events tell of entries, one of each, in order. -/
def Reported (events : List (Event Key Value)) (lost : List (Key × Value)) : Prop :=
  List.Forall₂ (fun departure entry => departure.Names entry.1 entry.2) (departures events) lost

theorem Reported.append {events more : List (Event Key Value)} {lost others : List (Key × Value)}
    (first : Reported events lost) (second : Reported more others) :
    Reported (events ++ more) (lost ++ others) := by
  rw [Reported, departures, List.filterMap_append]
  exact List.rel_append first second

theorem Reported.filter [DecidableEq Key] {events : List (Event Key Value)} {lost : List (Key × Value)}
    (reported : Reported events lost) (key : Key) :
    List.Forall₂ (fun departure entry => departure.Names entry.1 entry.2)
      ((departures events).filter fun departure => departure.key = key)
      (lost.filter fun entry => entry.1 = key) := by
  refine List.rel_filter ?_ reported
  intro departure entry names
  simp only [names.key]

theorem Reported.exists_of_mem {events : List (Event Key Value)} {lost : List (Key × Value)}
    (reported : Reported events lost) {event : Event Key Value} (listed : event ∈ events)
    {departure : Departure Key Value} (departs : event.departure? = some departure) :
    ∃ entry ∈ lost, departure.Names entry.1 entry.2 := by
  have member : departure ∈ departures events := List.mem_filterMap.mpr ⟨event, listed, departs⟩
  obtain ⟨index, bound, rfl⟩ := List.getElem_of_mem member
  obtain ⟨length, each⟩ := List.forall₂_iff_get.mp reported
  exact ⟨_, List.getElem_mem (length ▸ bound), each index bound (length ▸ bound)⟩

/-- An entry that leaves with its value. -/
def departing (entry : Key × Value) : Departure Key Value := ⟨entry.1, some entry.2⟩

theorem reported_of_departing {events : List (Event Key Value)} {lost : List (Key × Value)}
    (same : departures events = lost.map departing) : Reported events lost := by
  rw [Reported, same, List.forall₂_map_left_iff, List.forall₂_same]
  intro entry _
  exact ⟨rfl, fun told same => (Option.some.inj same).symm⟩

/-- A host that keeps a log of the events that it is told of, as long as something holds. -/
structure Host.Logs (host : Host World Key Value) (holds : World → Prop)
    (log : World → List (Event Key Value)) : Prop where
  keeps : host.Keeps holds
  record : ∀ recording {world}, holds world → log (host.record recording world) = log world
  notify : ∀ event {world}, holds world → log (host.notify event world) = log world ++ [event]

namespace Host.Logs

variable {host : Host World Key Value} {holds : World → Prop} {log : World → List (Event Key Value)}

theorem departures_notify (logs : host.Logs holds log) (event : Event Key Value) {world : World}
    (held : holds world) :
    departures (log (host.notify event world)) = departures (log world) ++ event.departure?.toList := by
  rw [logs.notify event held, departures, List.filterMap_append]
  cases departs : event.departure? with
  | none => rw [List.filterMap_cons_none departs]; rfl
  | some departure => rw [List.filterMap_cons_some departs]; rfl

theorem tells (logs : host.Logs holds log) :
    host.Tells holds (fun world => departures (log world)) departing where
  keeps := logs.keeps
  record recording {world} held := congrArg departures (logs.record recording held)
  demoted key value {world} held := by
    rw [logs.departures_notify _ held]
    exact List.append_nil _
  ejected key value {world} held := logs.departures_notify _ held
  displaced key value {world} held := logs.departures_notify _ held

/-- The log only grows. -/
theorem grows (logs : host.Logs holds log) (start : World) :
    host.Keeps fun world => holds world ∧ log start <+: log world where
  record recording {world} before := by
    refine ⟨logs.keeps.record recording before.1, ?_⟩
    rw [logs.record recording before.1]
    exact before.2
  notify event {world} before := by
    refine ⟨logs.keeps.notify event before.1, ?_⟩
    rw [logs.notify event before.1]
    exact before.2.trans (List.prefix_append _ _)

end Host.Logs

theorem Ledger.logs (moment : Moment) :
    (Host.ledger : Host (Ledger Key Value) Key Value).Logs (fun ledger => ledger.moment = moment) Ledger.events :=
  ⟨keeps_moment moment, fun _ _ _ => rfl, fun _ _ _ => rfl⟩

/-- Departures that were added to a log were told by events that were added. -/
theorem events_of_departures {before after : List (Event Key Value)} {told : List (Departure Key Value)}
    (grown : before <+: after) (added : departures after = departures before ++ told) :
    ∃ events, after = before ++ events ∧ departures events = told := by
  obtain ⟨events, rfl⟩ := grown
  refine ⟨events, rfl, ?_⟩
  rw [departures, List.filterMap_append] at added
  exact List.append_cancel_left added

variable [DecidableEq Key]

/-- The entries of a line that an operation on a key leaves alone. -/
def others (own : Option Key) (line : List (Key × Value)) : List (Key × Value) :=
  own.elim line fun key => Bindings.erase key line

theorem others_append (own : Option Key) (left right : List (Key × Value)) :
    others own (left ++ right) = others own left ++ others own right := by
  cases own with
  | none => rfl
  | some key => exact Bindings.erase_append key left right

theorem mem_others {own : Option Key} {line : List (Key × Value)} {entry : Key × Value} :
    entry ∈ others own line ↔ entry ∈ line ∧ own ≠ some entry.1 := by
  cases own with
  | none => exact ⟨fun member => ⟨member, nofun⟩, And.left⟩
  | some key =>
      rw [others, Option.elim_some, Bindings.mem_erase]
      exact and_congr_right fun _ => ⟨fun differs same => differs (Option.some.inj same).symm,
        fun differs same => differs (congrArg some same.symm)⟩

theorem others_sublist (own : Option Key) (line : List (Key × Value)) : (others own line).Sublist line := by
  cases own with
  | none => exact .refl _
  | some key => exact Bindings.erase_sublist key line

theorem filter_others {own : Option Key} {key : Key} (apart : own ≠ some key) (line : List (Key × Value)) :
    (others own line).filter (fun entry => entry.1 = key) = line.filter fun entry => entry.1 = key := by
  cases own with
  | none => rfl
  | some working =>
      rw [others, Option.elim_some, Bindings.erase, List.filter_filter]
      refine List.filter_congr ?_
      intro entry _
      by_cases same : entry.1 = key
      · have differs : key ≠ working := fun same => apart (congrArg some same.symm)
        simp [same, differs]
      · simp [same]

namespace Tiers

variable {host : Host World Key Value} {holds : World → Prop} {log : World → List (Event Key Value)}
  {own : Option Key} {key : Key} {value : Value} {events more : List (Event Key Value)}
  {tiers before between after : Tiers Key Value} {world : World}

/-- The events account for what tiers have lost, as far as keys go that are not the one at work. -/
structure Accounted (own : Option Key) (events : List (Event Key Value)) (before after : Tiers Key Value) : Prop where
  pins : ∀ key, own ≠ some key → after.pinned.slot? key = before.pinned.slot? key
  line : ∃ lost, Reported events lost ∧ others own (lost ++ after.line) = others own before.line

theorem Accounted.quiet (pins : ∀ key, own ≠ some key → after.pinned.slot? key = before.pinned.slot? key)
    (line : others own after.line = others own before.line) : Accounted own [] before after :=
  ⟨pins, [], .nil, line⟩

theorem Accounted.trans (first : Accounted own events before between)
    (second : Accounted own more between after) : Accounted own (events ++ more) before after := by
  obtain ⟨lost, reported, line⟩ := first.line
  obtain ⟨dropped, told, rest⟩ := second.line
  constructor
  · intro key apart
    exact (second.pins key apart).trans (first.pins key apart)
  · refine ⟨lost ++ dropped, reported.append told, ?_⟩
    rw [List.append_assoc, others_append, rest, ← others_append, line]

/-- What is accounted for on the whole is accounted for apart from any key. -/
theorem Accounted.apart (accounted : Accounted none events before after) (own : Option Key) :
    Accounted own events before after := by
  obtain ⟨lost, reported, line⟩ := accounted.line
  exact ⟨fun key _ => accounted.pins key nofun, lost, reported, congrArg (others own) line⟩

theorem mem_line_of_stores (stores : tiers.Stores key value) :
    tiers.pinned.slot? key = some (some value) ∨ (key, value) ∈ tiers.line := by
  cases stores with
  | pinned slot => exact .inl slot
  | primary member => exact .inr (List.mem_append_right _ member)
  | soft stamp member =>
      exact .inr (List.mem_append_left _ (List.mem_map_of_mem member))

theorem stores_of_mem_line (member : (key, value) ∈ tiers.line) : tiers.Stores key value := by
  rcases List.mem_append.mp member with soft | primary
  · obtain ⟨entry, stored, same⟩ := List.mem_map.mp soft
    obtain ⟨rfl, rfl⟩ := Prod.mk.inj same
    exact .soft entry.2.stamp stored
  · exact .primary primary

theorem mem_line_keys : key ∈ tiers.line.map Prod.fst ↔ key ∈ tiers.primaryKeys ++ tiers.softKeys := by
  rw [line, List.map_append, keys_unstamped, List.mem_append, List.mem_append, Or.comm]
  rfl

/-- An entry that is in no tier any more is lost exactly once, and nothing else is lost. -/
theorem Accounted.told (accounted : Accounted own events before after) (valid : before.Valid)
    (apart : own ≠ some key) (stored : before.Stores key value) (left : ¬after.Stores key value) :
    ∃ departure, (departures events).filter (fun departure => departure.key = key) = [departure] ∧
      departure.Names key value := by
  obtain ⟨lost, reported, line⟩ := accounted.line
  have unpinned : (key, value) ∈ before.line := by
    rcases mem_line_of_stores stored with slot | listed
    · exact absurd (.pinned ((accounted.pins key apart).trans slot)) left
    · exact listed
  have gone : (key, value) ∉ after.line := fun listed => left (stores_of_mem_line listed)
  have kept : (lost ++ after.line).filter (fun entry => entry.1 = key) =
      before.line.filter fun entry => entry.1 = key := by
    rw [← filter_others apart, line, filter_others apart]
  rw [Bindings.filter_of_mem valid.line_distinct unpinned, List.filter_append] at kept
  rcases List.append_eq_singleton_iff.mp kept with ⟨-, remains⟩ | ⟨single, -⟩
  · have listed : (key, value) ∈ after.line.filter fun entry => entry.1 = key := by
      rw [remains]
      exact List.mem_singleton_self _
    exact absurd (List.mem_filter.mp listed).1 gone
  · have named := reported.filter key
    rw [single, List.forall₂_cons_right_iff] at named
    obtain ⟨departure, rest, names, nothing, one⟩ := named
    rw [List.forall₂_nil_right_iff.mp nothing] at one
    exact ⟨departure, one, names⟩

/-- A departure tells of an entry that was stored and whose key is in no tier any more. -/
theorem Accounted.gone (accounted : Accounted own events before after) (valid : before.Valid)
    {event : Event Key Value} (listed : event ∈ events) {departure : Departure Key Value}
    (departs : event.departure? = some departure) (apart : own ≠ some departure.key) :
    (∃ value, before.Stores departure.key value ∧ departure.Names departure.key value) ∧
      departure.key ∉ after.pinnedKeys ++ after.primaryKeys ++ after.softKeys := by
  obtain ⟨lost, reported, line⟩ := accounted.line
  obtain ⟨⟨key, value⟩, missing, names⟩ := reported.exists_of_mem listed departs
  obtain rfl : departure.key = key := names.key
  have known : (departure.key, value) ∈ others own lost := mem_others.mpr ⟨missing, apart⟩
  have stored : (departure.key, value) ∈ before.line := by
    refine (others_sublist own _).subset ?_
    rw [← line, others_append]
    exact List.mem_append_left _ known
  have distinct := (((others_sublist own before.line).map Prod.fst).nodup) valid.line_distinct
  rw [← line, others_append, List.map_append, List.nodup_append] at distinct
  refine ⟨⟨value, stores_of_mem_line stored, names⟩, ?_⟩
  rw [List.append_assoc, List.mem_append]
  rintro (registered | remains)
  · have unpinned : before.pinned.slot? departure.key = none := by
      rcases List.mem_append.mp (mem_line_keys.mp (List.mem_map_of_mem stored)) with primary | soft
      · exact valid.primaryUnpinned _ primary
      · exact valid.softUnpinned _ soft
    rw [← accounted.pins _ apart] at unpinned
    exact PinnedTier.slot?_eq_none_iff.mp unpinned registered
  · obtain ⟨entry, left, same⟩ := List.mem_map.mp (mem_line_keys.mpr remains)
    have survives : entry ∈ others own after.line := mem_others.mpr ⟨left, same ▸ apart⟩
    exact distinct.2.2 _ (List.mem_map_of_mem known) _ (List.mem_map_of_mem survives) same.symm

/-- Of a key, the events tell at most that its new value found no room in either tier. -/
def OnlyEjects (key : Key) (placed : Option Value) (tiers : Tiers Key Value) (events : List (Event Key Value)) :
    Prop :=
  ∀ event ∈ events, ∀ departure, event.departure? = some departure → departure.key = key →
    tiers.cacheSize = 0 ∧ tiers.softReferenceSize = 0 ∧
      ∃ value ∈ placed, event = .primaryOverflow key value false

/-- The account of an operation on a key, which may place a value. -/
structure Account (key : Key) (placed : Option Value) (events : List (Event Key Value))
    (before after : Tiers Key Value) : Prop extends Accounted (some key) events before after where
  own : OnlyEjects key placed before events

/-- From one world to another a log has grown by the events of such an account. -/
def Accounts (log : World → List (Event Key Value)) (key : Key) (placed : Option Value)
    (before after : Tiers Key Value × World) : Prop :=
  ∃ events, log after.2 = log before.2 ++ events ∧ Account key placed events before.1 after.1

theorem Accounts.quiet {placed : Option Value} {later : World} (same : log later = log world)
    (pins : ∀ other, some key ≠ some other → after.pinned.slot? other = tiers.pinned.slot? other)
    (line : Bindings.erase key after.line = Bindings.erase key tiers.line) :
    Accounts log key placed (tiers, world) (after, later) :=
  ⟨[], same.trans (List.append_nil _).symm, .quiet pins line, nofun⟩

/-- What was done to the key beforehand does not matter. -/
theorem Accounts.prepared {placed : Option Value} {called : World} {outcome : Tiers Key Value × World}
    (accounts : Accounts log key placed (between, called) outcome) (same : log called = log world)
    (line : Bindings.erase key between.line = Bindings.erase key tiers.line)
    (pins : ∀ other, some key ≠ some other → between.pinned.slot? other = tiers.pinned.slot? other)
    (cacheSize : between.cacheSize = tiers.cacheSize)
    (softReferenceSize : between.softReferenceSize = tiers.softReferenceSize) :
    Accounts log key placed (tiers, world) outcome := by
  obtain ⟨events, told, account, own⟩ := accounts
  have prepared : Accounted (some key) [] tiers between := .quiet pins line
  refine ⟨events, told.trans (congrArg (· ++ events) same), prepared.trans account, ?_⟩
  intro event listed departure departs named
  obtain ⟨noPrimary, noSoft, ejected⟩ := own event listed departure departs named
  exact ⟨cacheSize ▸ noPrimary, softReferenceSize ▸ noSoft, ejected⟩

/-- What is done to the log afterwards does not matter unless something is told. -/
theorem Accounts.counted {placed : Option Value} {later : World} {outcome : Tiers Key Value × World}
    (accounts : Accounts log key placed (tiers, world) outcome) (same : log later = log outcome.2) :
    Accounts log key placed (tiers, world) (outcome.1, later) := by
  obtain ⟨events, told, account⟩ := accounts
  exact ⟨events, same.trans told, account⟩

/-- Where neither tier has room, a new entry is turned away at once. -/
theorem insertPrimary_turnedAway (noPrimary : tiers.primary.capacity = 0) (noSoft : tiers.soft.capacity = 0)
    (absent : Bindings.find? key tiers.primary.toList = none) (host : Host World Key Value) (instant : Instant)
    (value : Value) (world : World) :
    insertPrimary host instant key value tiers world =
      (none, tiers, overflowTold host false (key, value) world) := by
  have turned := PrimaryTier.insert_of_capacity_zero absent noPrimary value
  simp only [insertPrimary, turned]
  rw [demote_disabled noSoft]

omit [DecidableEq Key] in
theorem overflowTold_log (logs : host.Logs holds log) (held : holds world) (demoted : Bool) (entry : Key × Value) :
    log (overflowTold host demoted entry world) =
      log world ++ [.primaryOverflow entry.1 entry.2 demoted] := by
  rw [overflowTold, logs.notify _ (logs.keeps.record _ held), logs.record _ held]

omit [DecidableEq Key] in
theorem announceSoftOverflow_log (logs : host.Logs holds log) (held : holds world) (entry : Key × Value) :
    log (announceSoftOverflow host entry world) = log world ++ [.softOverflow entry.1 entry.2] := by
  rw [announceSoftOverflow, logs.notify _ (logs.keeps.record _ held), logs.record _ held]

/-- The newest entry of a line is not among those that leave it, if the line has any room. -/
theorem newest_stays (absent : Bindings.find? key tiers.primary.toList = none)
    (softAbsent : key ∉ tiers.softKeys) {room : Nat} (some : 0 < room) :
    key ∉ ((tiers.line ++ [(key, value)]).rdrop room).map Prod.fst := by
  have fresh : key ∉ tiers.line.map Prod.fst := by
    rw [mem_line_keys, List.mem_append]
    exact not_or.mpr ⟨Bindings.find?_eq_none_iff.mp absent, softAbsent⟩
  have surplus : (tiers.line ++ [(key, value)]).rdrop room = tiers.line.rdrop (room - 1) := by
    have length : (tiers.line ++ [(key, value)]).length - room = tiers.line.length - (room - 1) := by
      rw [List.length_append, List.length_singleton]
      omega
    rw [List.rdrop, length, List.take_append_of_le_length (Nat.sub_le _ _)]
    rfl
  rw [surplus]
  exact fun member => fresh (((Line.rdrop_sublist _ _).map Prod.fst).subset member)

theorem insertPrimary_accounts (logs : host.Logs holds log) (held : holds world) (valid : tiers.Valid)
    (softAbsent : key ∉ tiers.softKeys) (instant : Instant) (value : Value) :
    Accounts log key (some value) (tiers, world) (insertPrimary host instant key value tiers world).2 := by
  cases present : Bindings.find? key tiers.primary.toList with
  | some old =>
      rw [insertPrimary_present present]
      refine .quiet rfl (fun _ _ => rfl) ?_
      rw [erase_line, erase_line, PrimaryTier.erase_insert_present present]
  | none =>
      have told := insertPrimary_told logs.tells held valid instant value present softAbsent
      have settles := valid.settles_insertPrimary logs.keeps instant value world held present softAbsent
      obtain ⟨-, -, -, grown⟩ := insertPrimary_simulates (logs.grows world).simulates instant key value tiers
        ⟨rfl, held, List.prefix_refl _⟩
      obtain ⟨events, added, departed⟩ := events_of_departures grown.2 told
      refine ⟨events, added, ⟨?_, ?_⟩, ?_⟩
      · intro other _
        rw [settles.pinned]
      · refine ⟨_, reported_of_departing departed, ?_⟩
        rw [settles.line valid.softFits, ← List.append_assoc, ← line, Line.rdrop_append_rtake]
        simp [others, Bindings.erase]
      · intro event listed departure departs named
        by_cases room : 0 < tiers.primary.capacity + tiers.soft.capacity
        · obtain ⟨entry, missing, names⟩ := (reported_of_departing departed).exists_of_mem listed departs
          have left : key ∈ ((tiers.line ++ [(key, value)]).rdrop
              (tiers.primary.capacity + tiers.soft.capacity)).map Prod.fst :=
            List.mem_map.mpr ⟨entry, missing, names.key.symm.trans named⟩
          exact absurd left (newest_stays present softAbsent room)
        · obtain ⟨noPrimary, noSoft⟩ := Nat.add_eq_zero_iff.mp (Nat.eq_zero_of_not_pos room)
          have alone : log world ++ events = log world ++ [.primaryOverflow key value false] := by
            rw [← added, insertPrimary_turnedAway noPrimary noSoft present]
            exact overflowTold_log logs held false (key, value)
          rw [List.append_cancel_left alone] at listed
          exact ⟨noPrimary, noSoft, value, rfl, List.mem_singleton.mp listed⟩

/-- A value that cannot be placed is not: a tier that stores an entry has room. -/
theorem Accounts.roomy {placed other : Option Value} {outcome : Tiers Key Value × World}
    (accounts : Accounts log key placed (tiers, world) outcome) (room : tiers.softReferenceSize ≠ 0) :
    Accounts log key other (tiers, world) outcome := by
  obtain ⟨events, told, account, own⟩ := accounts
  refine ⟨events, told, account, ?_⟩
  intro event listed departure departs named
  exact absurd (own event listed departure departs named).2.1 room

theorem softReferenceSize_pos_of_peek (valid : tiers.Valid) {moment : Moment}
    (live : tiers.soft.peek? moment key = some value) : tiers.softReferenceSize ≠ 0 := by
  obtain ⟨stamp, shown⟩ := SoftTier.peek?_eq_some_iff.mp live
  have stored := List.length_pos_of_mem (List.mem_filter.mp shown).1
  exact Nat.ne_of_gt (stored.trans_le valid.softFits)

theorem insertPrimary_keeps (keeps : host.Keeps holds) (held : holds world) (instant : Instant) (key : Key)
    (value : Value) (tiers : Tiers Key Value) : holds (insertPrimary host instant key value tiers world).2.2 :=
  (insertPrimary_simulates keeps.simulates instant key value tiers ⟨rfl, held⟩).2.2.2

theorem slot?_pin_apart (tier : PinnedTier Key Value) (slot : Option Value) (other : Key)
    (apart : some key ≠ some other) : (tier.pin key slot).slot? other = tier.slot? other := by
  rw [PinnedTier.slot?_pin, if_neg fun same => apart (congrArg some same.symm)]

theorem slot?_unpin_apart (tier : PinnedTier Key Value) (other : Key) (apart : some key ≠ some other) :
    (tier.unpin key).2.slot? other = tier.slot? other := by
  rw [PinnedTier.slot?_unpin, if_neg fun same => apart (congrArg some same.symm)]

theorem put_accounts (logs : host.Logs holds log) (held : holds world) (valid : tiers.Valid) (key : Key)
    (value : Value) : Accounts log key (some value) (tiers, world) (put host key value tiers world).2 := by
  have called := logs.record .putCall held
  have kept := logs.keeps.record .putCall held
  cases pinned : tiers.pinned.slot? key with
  | some slot =>
      rw [put_of_pinned pinned]
      exact .quiet ((logs.record .putPinned kept).trans called) (slot?_pin_apart tiers.pinned (some value)) rfl
  | none =>
      rw [put_of_unpinned pinned]
      have inserted := insertPrimary_accounts logs kept (valid.withoutSoft key)
        (Valid.absent_withoutSoft tiers key) (host.clock (host.record .putCall world)) value
      refine (inserted.prepared called (erase_line_withoutSoft key tiers) (fun _ _ => rfl) rfl rfl).counted ?_
      exact logs.record _ (insertPrimary_keeps logs.keeps kept _ key value _)

theorem get_accounts (logs : host.Logs holds log) (held : holds world) (valid : tiers.Valid) (key : Key) :
    Accounts log key none (tiers, world) (get host key tiers world).2 := by
  have called := logs.record .getCall held
  have kept := logs.keeps.record .getCall held
  cases pinned : tiers.pinned.slot? key with
  | some slot =>
      rw [get_of_pinned pinned]
      exact .quiet ((logs.record _ kept).trans called) (fun _ _ => rfl) rfl
  | none =>
      cases present : tiers.primary.peek? key with
      | some value =>
          rw [get_of_primary pinned present]
          refine .quiet ((logs.record _ kept).trans called) (fun _ _ => rfl) ?_
          rw [erase_line, erase_line, PrimaryTier.erase_touch]
      | none =>
          have without := erase_line_withoutSoft key tiers
          cases live : tiers.soft.peek? (host.moment (host.record .getCall world)) key with
          | some value =>
              rw [get_of_soft pinned present live]
              have hit := logs.keeps.record .getSoftHit kept
              have counted := (logs.record .softPromotion hit).trans ((logs.record .getSoftHit kept).trans called)
              have inserted := insertPrimary_accounts logs (logs.keeps.record .softPromotion hit)
                (valid.withoutSoft key) (Valid.absent_withoutSoft tiers key)
                (host.clock (host.record .getCall world)) value
              exact (inserted.prepared counted without (fun _ _ => rfl) rfl rfl).roomy
                (softReferenceSize_pos_of_peek valid live)
          | none =>
              rw [get_of_missing pinned present live]
              exact .quiet ((logs.record _ kept).trans called) (fun _ _ => rfl) without

omit [DecidableEq Key] in
/-- A count made or not made tells nothing. -/
theorem log_record_if (logs : host.Logs holds log) (held : holds world) (found : Bool)
    (recording : Metrics.Recording) :
    log (if found then host.record recording world else world) = log world := by
  cases found with
  | false => rfl
  | true => exact logs.record recording held

theorem remove_accounts (logs : host.Logs holds log) (held : holds world) (tiers : Tiers Key Value) (key : Key) :
    Accounts log key none (tiers, world) (remove host key tiers world).2 := by
  have called := logs.record .removeCall held
  have kept := logs.keeps.record .removeCall held
  rw [remove_eq]
  refine .quiet ((log_record_if logs kept _ _).trans called) (slot?_unpin_apart tiers.pinned) ?_
  rw [erase_line, erase_line, (tiers.primary.remove_eq key).2, toList_withoutSoft, Bindings.erase_erase,
    Bindings.erase_erase]

theorem pin_accounts (logs : host.Logs holds log) (held : holds world) (tiers : Tiers Key Value) (key : Key) :
    Accounts log key none (tiers, world) (pin host key tiers world).2 := by
  have called := logs.record .pinCall held
  have kept := logs.keeps.record .pinCall held
  cases slot : tiers.pinned.slot? key with
  | some stored =>
      rw [pin_of_pinned slot]
      exact .quiet ((log_record_if logs kept _ _).trans called) (fun _ _ => rfl) rfl
  | none =>
      cases present : tiers.primary.peek? key with
      | some value =>
          rw [pin_of_primary slot present]
          refine .quiet ((logs.record .pinFound kept).trans called) (slot?_pin_apart tiers.pinned _) ?_
          rw [erase_line, erase_line, (tiers.primary.remove_eq key).2, Bindings.erase_erase]
      | none =>
          rw [pin_of_absent slot present]
          refine .quiet ((log_record_if logs kept _ _).trans called) (slot?_pin_apart tiers.pinned _) ?_
          exact erase_line_withoutSoft key tiers

theorem unpin_accounts (logs : host.Logs holds log) (held : holds world) (valid : tiers.Valid) (key : Key) :
    Accounts log key (tiers.pinned.value? key) (tiers, world) (unpin host key tiers world).2 := by
  have called := logs.record .unpinCall held
  have kept := logs.keeps.record .unpinCall held
  have apart : ∀ other, some key ≠ some other →
      (tiers.pinned.unpin key).2.slot? other = tiers.pinned.slot? other := slot?_unpin_apart tiers.pinned
  cases slot : tiers.pinned.slot? key with
  | none =>
      rw [unpin_of_unpinned slot]
      exact .quiet called (fun _ _ => rfl) rfl
  | some stored =>
      cases stored with
      | none =>
          rw [unpin_of_empty slot]
          exact .quiet ((logs.record .unpinFound kept).trans called) apart rfl
      | some value =>
          rw [unpin_of_valued slot, PinnedTier.value?, slot]
          have inserted := insertPrimary_accounts logs kept (valid.unpinned key) (valid.softAbsent_of_pinned slot)
            (host.clock (host.record .unpinCall world)) value
          refine (inserted.prepared called ?_ apart rfl rfl).counted ?_
          · rfl
          · exact logs.record _ (insertPrimary_keeps logs.keeps kept _ key value _)

/-! ### Operations on no key -/

omit [DecidableEq Key] in
theorem log_foldl {act : Key × Value → World → World} {event : Key × Value → Event Key Value}
    (step : ∀ entry {world}, holds world → holds (act entry world) ∧ log (act entry world) = log world ++ [event entry])
    (entries : List (Key × Value)) (held : holds world) :
    log (entries.foldl (fun world entry => act entry world) world) = log world ++ entries.map event := by
  induction entries generalizing world with
  | nil => exact (List.append_nil _).symm
  | cons entry rest ih =>
      obtain ⟨kept, told⟩ := step entry held
      rw [List.foldl_cons, ih kept, told, List.append_assoc]
      rfl

/-- A purge tells of each entry that it drops. -/
theorem purgeSoft_log (logs : host.Logs holds log) (held : holds world) (tiers : Tiers Key Value) :
    log (purgeSoft host tiers world).2.2 =
      log world ++ (tiers.soft.purge (host.moment world)).1.map fun entry => .softReclaimed entry.1 := by
  simp only [purgeSoft]
  split
  next empty =>
    rw [List.isEmpty_iff.mp empty]
    exact (List.append_nil _).symm
  next =>
    have counted := logs.record (.softReclaimed (tiers.soft.purge (host.moment world)).1.length.toUInt64) held
    refine Eq.trans ?_ (congrArg (· ++ _) counted)
    refine log_foldl ?_ _ (logs.keeps.record _ held)
    intro entry world held
    exact ⟨logs.keeps.notify _ held, logs.notify _ held⟩

omit [DecidableEq Key] in
theorem reported_reclaimed (lost : List (Key × Value)) :
    Reported (lost.map fun entry => .softReclaimed entry.1) lost := by
  rw [Reported, departures, List.filterMap_map]
  induction lost with
  | nil => exact .nil
  | cons entry rest ih => exact .cons ⟨rfl, nofun⟩ ih

theorem purgeSoft_accounted (host : Host World Key Value) (tiers : Tiers Key Value) (world : World) :
    Accounted none ((tiers.soft.purge (host.moment world)).1.map fun entry => .softReclaimed entry.1) tiers
      (purgeSoft host tiers world).2.1 := by
  obtain ⟨dropped, kept⟩ := tiers.soft.purge_eq (host.moment world)
  rw [purgeSoft_snd]
  refine ⟨fun _ _ => rfl, _, reported_reclaimed _, ?_⟩
  rw [line, kept, dropped, ← List.append_assoc]
  change (List.map Stamped.unstamped _ ++ List.map Stamped.unstamped _) ++ _ = tiers.line
  rw [← List.map_append, List.takeWhile_append_dropWhile]
  rfl

theorem setSoftReferenceSize_log (logs : host.Logs holds log) (held : holds world) (capacity : Nat)
    (tiers : Tiers Key Value) :
    log (setSoftReferenceSize host capacity tiers world).2 =
      log world ++ (tiers.soft.setCapacity capacity).1.map fun entry => .softOverflow entry.1 entry.2 := by
  refine log_foldl ?_ _ held
  intro entry world held
  exact ⟨logs.keeps.notify _ (logs.keeps.record _ held), announceSoftOverflow_log logs held entry⟩

theorem setSoftReferenceSize_accounted (host : Host World Key Value) (capacity : Nat) (tiers : Tiers Key Value)
    (world : World) :
    Accounted none ((tiers.soft.setCapacity capacity).1.map fun entry => .softOverflow entry.1 entry.2) tiers
      (setSoftReferenceSize host capacity tiers world).1 := by
  obtain ⟨dropped, kept⟩ := tiers.soft.setCapacity_eq capacity
  refine ⟨fun _ _ => rfl, (tiers.soft.setCapacity capacity).1, reported_of_departing ?_, ?_⟩
  · rw [departures, List.filterMap_map]
    exact congrFun List.filterMap_eq_map _
  · rw [setSoftReferenceSize, line, kept, dropped, ← List.append_assoc]
    change (List.map Stamped.unstamped _ ++ List.map Stamped.unstamped _) ++ _ = tiers.line
    rw [← List.map_append, List.take_append_drop]
    rfl

theorem setCacheSize_accounted (logs : host.Logs holds log) (held : holds world) (valid : tiers.Valid)
    (capacity : Nat) :
    ∃ events, log (setCacheSize host capacity tiers world).2 = log world ++ events ∧
      Accounted none events tiers (setCacheSize host capacity tiers world).1 := by
  have told := setCacheSize_told logs.tells held valid capacity
  have settles := valid.settles_setCacheSize logs.keeps capacity world held
  obtain ⟨-, -, grown⟩ := setCacheSize_simulates (logs.grows world).simulates capacity tiers
    ⟨rfl, held, List.prefix_refl _⟩
  obtain ⟨events, added, departed⟩ := events_of_departures grown.2 told
  refine ⟨events, added, ⟨?_, _, reported_of_departing departed, ?_⟩⟩
  · intro key _
    rw [settles.pinned]
  · rw [settles.line valid.softFits]
    exact Line.rdrop_append_rtake tiers.line _

end Tiers

end LayeredCache
