import LayeredCache.Proofs.Tiers.Valid

/-! What tiers tell about the entries they drop for want of room. What the events of an operation drop is what the line
of the soft tier, lengthened by the entries demoted, has no room for, whatever else the host does when it is told. -/

set_option autoImplicit false

namespace LayeredCache

variable {World Item Key Value : Type}

/-- A host that remembers, as long as something holds, which entries it was told were dropped for want of room, each as
an item. -/
structure Host.Tells (host : Host World Key Value) (holds : World → Prop) (told : World → List Item)
    (item : Key × Value → Item) : Prop where
  keeps : host.Keeps holds
  record : ∀ recording {world}, holds world → told (host.record recording world) = told world
  demoted : ∀ key value {world}, holds world →
    told (host.notify (.primaryOverflow key value true) world) = told world
  ejected : ∀ key value {world}, holds world →
    told (host.notify (.primaryOverflow key value false) world) = told world ++ [item (key, value)]
  displaced : ∀ key value {world}, holds world →
    told (host.notify (.softOverflow key value) world) = told world ++ [item (key, value)]

/-- A world that stands still and keeps the events that it is told of. -/
structure Ledger (Key Value : Type) where
  moment : Moment
  tally : Metrics.Tally
  events : List (Event Key Value)

def Host.ledger : Host (Ledger Key Value) Key Value where
  clock ledger := ledger.moment.instant
  epoch ledger := ledger.moment.epoch
  record recording ledger := { ledger with tally := ledger.tally.record recording }
  notify event ledger := { ledger with events := ledger.events ++ [event] }

/-- The entry that leaves the cache for want of room with an event. -/
def Event.dropped? : Event Key Value → Option (Key × Value)
  | .primaryOverflow key value false | .softOverflow key value => some (key, value)
  | .primaryOverflow _ _ true | .softReclaimed _ => none

namespace Ledger

def start (moment : Moment) : Ledger Key Value := ⟨moment, .zero, []⟩

/-- The ledger before anything is told of the next operation. -/
def cleared (ledger : Ledger Key Value) : Ledger Key Value := { ledger with events := [] }

def dropped (ledger : Ledger Key Value) : List (Key × Value) := ledger.events.filterMap Event.dropped?

theorem keeps_moment (moment : Moment) :
    (Host.ledger : Host (Ledger Key Value) Key Value).Keeps fun ledger => ledger.moment = moment :=
  ⟨fun _ _ still => still, fun _ _ still => still⟩

theorem keeps_epoch (epoch : Epoch) :
    (Host.ledger : Host (Ledger Key Value) Key Value).Keeps fun ledger => Host.ledger.epoch ledger = epoch :=
  ⟨fun _ _ same => same, fun _ _ same => same⟩

theorem dropped_notify (event : Event Key Value) (ledger : Ledger Key Value) :
    (Host.ledger.notify event ledger).dropped = ledger.dropped ++ event.dropped?.toList := by
  rw [dropped, dropped, Host.ledger, List.filterMap_append]
  cases found : event.dropped? with
  | none => rw [List.filterMap_cons_none found, List.filterMap_nil, Option.toList_none]
  | some entry => rw [List.filterMap_cons_some found, List.filterMap_nil, Option.toList_some]

theorem tells : (Host.ledger : Host (Ledger Key Value) Key Value).Tells (fun _ => True) dropped id where
  keeps := Host.keeps_true _
  record _ _ _ := rfl
  demoted _ _ ledger _ := (dropped_notify _ ledger).trans (List.append_nil _)
  ejected _ _ ledger _ := dropped_notify _ ledger
  displaced _ _ ledger _ := dropped_notify _ ledger

end Ledger

namespace Tiers

variable [DecidableEq Key] {host : Host World Key Value} {holds : World → Prop} {told : World → List Item}
  {item : Key × Value → Item} {tiers : Tiers Key Value} {world : World} {key : Key}

/-- The entries of both bounded tiers, the next to leave the cache first. -/
def line (tiers : Tiers Key Value) : List (Key × Value) :=
  tiers.soft.toList.map Stamped.unstamped ++ tiers.primary.toList

theorem Valid.line_distinct (valid : tiers.Valid) : (tiers.line.map Prod.fst).Nodup := by
  rw [line, List.map_append, keys_unstamped, List.nodup_append]
  refine ⟨tiers.soft.keysDistinct, tiers.primary.keysDistinct, ?_⟩
  intro key soft other primary same
  exact valid.primarySoft other primary (same ▸ soft)

theorem erase_line (key : Key) (tiers : Tiers Key Value) :
    Bindings.erase key tiers.line =
      (Bindings.erase key tiers.soft.toList).map Stamped.unstamped ++
        Bindings.erase key tiers.primary.toList := by
  rw [line, Bindings.erase_append, Stamped.erase_unstamped]

theorem erase_line_withoutSoft (key : Key) (tiers : Tiers Key Value) :
    Bindings.erase key (tiers.withoutSoft key).line = Bindings.erase key tiers.line := by
  rw [erase_line, erase_line, toList_withoutSoft, Bindings.erase_erase]
  rfl

/-- A demotion drops what the soft tier has no room for when it is offered one entry more. -/
theorem demote_told (tells : host.Tells holds told item) (held : holds world) (instant : Instant)
    (entry : Key × Value) (fits : tiers.soft.toList.length ≤ tiers.soft.capacity)
    (absent : entry.1 ∉ tiers.soft.toList.map Prod.fst) :
    told (demote host instant entry tiers world).2 =
      told world ++
        ((tiers.soft.toList.map Stamped.unstamped ++ [entry]).rdrop tiers.soft.capacity).map item := by
  by_cases disabled : tiers.soft.capacity = 0
  · have nothing : tiers.soft.toList = [] := by
      rw [disabled] at fits
      exact List.eq_nil_of_length_eq_zero (Nat.le_zero.mp fits)
    rw [demote_disabled disabled, overflowTold, tells.ejected _ _ (tells.keeps.record _ held),
      tells.record _ held, disabled, nothing]
    rfl
  · have enabled := Nat.pos_of_ne_zero disabled
    let after := overflowTold host true entry world
    have kept : holds after := overflowTold_keeps tells.keeps true entry held
    have same : told after = told world :=
      (tells.demoted _ _ (tells.keeps.record _ held)).trans (tells.record _ held)
    obtain ⟨outcome, -⟩ := SoftTier.accept_line fits ⟨instant, host.epoch after⟩ entry.1 entry.2
    let offered := tiers.soft.toList ++ [(entry.1, Stamped.mk entry.2 ⟨instant, host.epoch after⟩)]
    have surplus : (tiers.soft.toList.map Stamped.unstamped ++ [entry]).rdrop tiers.soft.capacity =
        (offered.rdrop tiers.soft.capacity).map Stamped.unstamped := by
      rw [Line.map_rdrop, List.map_append]
      rfl
    have single : (offered.rdrop tiers.soft.capacity).length ≤ 1 := by
      rw [List.rdrop, List.length_take, List.length_append, List.length_singleton]
      omega
    rw [demote_enabled enabled]
    dsimp only
    rw [outcome, SoftTier.offered_of_absent absent, surplus, ← same]
    change told (((offered.rdrop tiers.soft.capacity).head?.map Stamped.unstamped).elim after
      fun dropped => announceSoftOverflow host dropped after) = _
    revert single
    generalize offered.rdrop tiers.soft.capacity = rest
    intro single
    cases rest with
    | nil => exact (List.append_nil _).symm
    | cons dropped others =>
        have nothing : others = [] := by
          rw [List.length_cons] at single
          exact List.eq_nil_of_length_eq_zero (by omega)
        rw [nothing, ← tells.record .softOverflow kept]
        exact tells.displaced _ _ (tells.keeps.record _ kept)

theorem demoteAll_told (tells : host.Tells holds told item) (held : holds world) (instant : Instant)
    {entries : List (Key × Value)} (distinct : (entries.map Prod.fst).Nodup)
    (fits : tiers.soft.toList.length ≤ tiers.soft.capacity)
    (apart : ∀ key ∈ entries.map Prod.fst, key ∉ tiers.soft.toList.map Prod.fst) :
    told (demoteAll host instant entries tiers world).2 =
      told world ++
        ((tiers.soft.toList.map Stamped.unstamped ++ entries).rdrop tiers.soft.capacity).map item := by
  induction entries generalizing tiers world with
  | nil =>
      rw [List.append_nil, Line.rdrop_of_fits (by rwa [List.length_map]), List.map_nil, List.append_nil]
      rfl
  | cons entry rest ih =>
      obtain ⟨stamp, -, line⟩ := demote_line tells.keeps instant entry held fits (apart entry.1 (by simp))
      obtain ⟨fitsAfter, apartAfter⟩ := demote_prepares host instant distinct world fits apart
      have heldAfter := (demote_simulates tells.keeps.simulates instant entry tiers ⟨rfl, held⟩).2.2
      have unstamped : (demote host instant entry tiers world).1.soft.toList.map Stamped.unstamped =
          (tiers.soft.toList.map Stamped.unstamped ++ [entry]).rtake tiers.soft.capacity := by
        rw [line, Line.map_rtake, List.map_append]
        rfl
      rw [demoteAll]
      dsimp only
      rw [ih heldAfter (List.nodup_cons.mp distinct).2 fitsAfter apartAfter,
        demote_told tells held instant entry fits (apart entry.1 (by simp)), unstamped,
        (demote_differ host instant entry tiers world).capacity, List.append_assoc, ← List.map_append,
        ← Line.rdrop_append, List.append_assoc, List.singleton_append]

/-- A settled line continues the line of the soft tier, and both tiers keep what one of their summed room keeps. -/
theorem Settles.line {stamps : Moment → Prop} {entries : List (Key × Value)}
    {after : Tiers Key Value} (settles : Settles stamps entries tiers after)
    (fits : tiers.soft.toList.length ≤ tiers.soft.capacity) :
    after.line = (tiers.soft.toList.map Stamped.unstamped ++ entries).rtake
      (tiers.primary.capacity + tiers.soft.capacity) := by
  obtain ⟨demoted, surplus, -, stored⟩ := settles.soft
  have room : (tiers.soft.toList.map Stamped.unstamped).length ≤ tiers.soft.capacity := by
    rwa [List.length_map]
  rw [Tiers.line, stored, settles.primary, Line.map_rtake, List.map_append, surplus,
    Line.rtake_cascade room]

theorem insertPrimary_told (tells : host.Tells holds told item) (held : holds world) (valid : tiers.Valid)
    (instant : Instant) (value : Value) (absent : Bindings.find? key tiers.primary.toList = none)
    (softAbsent : key ∉ tiers.softKeys) :
    told (insertPrimary host instant key value tiers world).2.2 =
      told world ++
        ((tiers.line ++ [(key, value)]).rdrop (tiers.primary.capacity + tiers.soft.capacity)).map item := by
  have surplus := (Line.rdrop_sublist (tiers.primary.toList ++ [(key, value)])
    tiers.primary.capacity).map Prod.fst
  have room : (tiers.soft.toList.map Stamped.unstamped).length ≤ tiers.soft.capacity := by
    rw [List.length_map]
    exact valid.softFits
  rw [insertPrimary_absent valid.primaryFits absent, Tiers.line, List.append_assoc,
    ← Line.rdrop_cascade room]
  have distinct := surplus.nodup (PrimaryTier.keysDistinct_concat absent)
  refine demoteAll_told tells held instant distinct valid.softFits ?_
  intro other member
  exact valid.newLine_apart softAbsent value other (surplus.subset member)

theorem setCacheSize_told (tells : host.Tells holds told item) (held : holds world) (valid : tiers.Valid)
    (capacity : Nat) :
    told (setCacheSize host capacity tiers world).2 =
      told world ++ (tiers.line.rdrop (capacity + tiers.soft.capacity)).map item := by
  have surplus := (Line.rdrop_sublist tiers.primary.toList capacity).map Prod.fst
  have room : (tiers.soft.toList.map Stamped.unstamped).length ≤ tiers.soft.capacity := by
    rw [List.length_map]
    exact valid.softFits
  rw [setCacheSize_eq, Tiers.line, ← Line.rdrop_cascade room]
  refine demoteAll_told tells held _ (surplus.nodup tiers.primary.keysDistinct) valid.softFits ?_
  intro other member
  exact valid.primarySoft other (surplus.subset member)

theorem insertPrimary_dropped (valid : tiers.Valid) (instant : Instant) (value : Value)
    (ledger : Ledger Key Value) (absent : Bindings.find? key tiers.primary.toList = none)
    (softAbsent : key ∉ tiers.softKeys) :
    (insertPrimary .ledger instant key value tiers ledger).2.2.dropped =
      ledger.dropped ++
        (tiers.line ++ [(key, value)]).rdrop (tiers.primary.capacity + tiers.soft.capacity) := by
  have told : (insertPrimary .ledger instant key value tiers ledger).2.2.dropped = _ :=
    insertPrimary_told Ledger.tells trivial valid instant value absent softAbsent
  rwa [List.map_id] at told

theorem setCacheSize_dropped (valid : tiers.Valid) (capacity : Nat) (ledger : Ledger Key Value) :
    (setCacheSize .ledger capacity tiers ledger).2.dropped =
      ledger.dropped ++ tiers.line.rdrop (capacity + tiers.soft.capacity) := by
  have told : (setCacheSize .ledger capacity tiers ledger).2.dropped = _ :=
    setCacheSize_told Ledger.tells trivial valid capacity
  rwa [List.map_id] at told

end Tiers

end LayeredCache
