import LayeredCache.Proofs.Tiers.Merging
import LayeredCache.Proofs.Tiers.Serving

/-! Copying tiers onto themselves. Every entry finds its key with the value that it brings, so that what the tiers show
stays as it is, though an entry may by then have left the tier that it was listed in: a live entry of the soft tier goes
to the primary tier, and whatever it pushes out of a full one finds the place that it left. -/

set_option autoImplicit false

namespace LayeredCache

variable {World Key Value : Type} [DecidableEq Key]

theorem PinnedTier.pin_self {tier : PinnedTier Key Value} {key : Key} {slot : Option Value}
    (pinned : tier.slot? key = some slot) : tier.pin key slot = tier := by
  obtain ⟨⟨entries, distinct⟩⟩ := tier
  have present : Directory.contains ⟨entries, distinct⟩ key = true := Option.isSome_iff_exists.mpr ⟨slot, pinned⟩
  have same := Bindings.reassign_self distinct pinned
  rw [pin, Directory.insert, dif_pos present]
  simp only [same]

namespace Tiers

variable {host : Host World Key Value} {holds : World → Prop} {log : World → List (Event Key Value)}
  {entry : Entry Key Value} {entries : List (Entry Key Value)} {tiers before after : Tiers Key Value}
  {replaceExisting : Bool} {key : Key} {value : Value} {moment : Moment} {world : World}

/-! ### What is shown -/

/-- Tiers present an entry if its key shows the value of the entry, in a slot of the pinned tier if the entry is pinned. -/
structure Presents (tiers : Tiers Key Value) (moment : Moment) (entry : Entry Key Value) : Prop where
  value? : tiers.value? moment entry.key = some entry.value
  slot? : entry.tier = .pinned → tiers.pinned.slot? entry.key = some (some entry.value)

theorem Valid.presents (valid : tiers.Valid) (listed : entry ∈ tiers.entries moment) : tiers.Presents moment entry where
  value? := by
    have distinct : (((tiers.entries moment).map Entry.binding).map Prod.fst).Nodup := by
      rw [List.map_map]
      exact valid.distinct_entries moment
    rw [← find?_entries, Bindings.find?_eq_some_iff distinct]
    exact List.mem_map_of_mem listed
  slot? := by
    intro pinned
    rw [entries_tagged] at listed
    rcases List.mem_append.mp listed with own | other
    · exact PinnedTier.mem_toList_iff.mp (mem_of_tagged own)
    · rcases List.mem_append.mp other with primary | soft
      · cases pinned.symm.trans (tier_of_tagged primary)
      · cases pinned.symm.trans (tier_of_tagged soft)

/-- Tiers go on to show what they did, and have kept their pins. -/
structure ShowsAlike (moment : Moment) (before after : Tiers Key Value) : Prop where
  value? : ∀ key, after.value? moment key = before.value? moment key
  pinned : after.pinned = before.pinned

theorem ShowsAlike.presents (alike : ShowsAlike moment before after) (presented : before.Presents moment entry) :
    after.Presents moment entry where
  value? := (alike.value? entry.key).trans presented.value?
  slot? := by
    rw [alike.pinned]
    exact presented.slot?

theorem ShowsAlike.trans {third : Tiers Key Value} (first : ShowsAlike moment before after)
    (second : ShowsAlike moment after third) : ShowsAlike moment before third :=
  ⟨fun key => (second.value? key).trans (first.value? key), second.pinned.trans first.pinned⟩

/-- Tiers go on to show what they did, and all that could be told of was demoted. -/
structure Replays (log : World → List (Event Key Value)) (moment : Moment) (before after : Tiers Key Value × World) :
    Prop extends ShowsAlike moment before.1 after.1 where
  told : TellsDemotions log before.2 after.2

theorem Replays.trans {first second third : Tiers Key Value × World} (start : Replays log moment first second)
    (rest : Replays log moment second third) : Replays log moment first third where
  toShowsAlike := start.toShowsAlike.trans rest.toShowsAlike
  told := start.told.trans rest.told

theorem pinned_put_of_unpinned (unpinned : tiers.pinned.slot? key = none) (host : Host World Key Value) (value : Value)
    (world : World) : (put host key value tiers world).2.1.pinned = tiers.pinned := by
  rw [put_of_unpinned unpinned]
  exact pinned_insertPrimary host _ key value (tiers.withoutSoft key) _

theorem pinned_put_shown (valid : tiers.Valid) (shown : tiers.value? moment key = some value)
    (host : Host World Key Value) (world : World) : (put host key value tiers world).2.1.pinned = tiers.pinned := by
  cases slot : tiers.pinned.slot? key with
  | some stored =>
      rw [value?_of_pinned valid slot] at shown
      rw [shown] at slot
      rw [put_of_pinned slot]
      exact PinnedTier.pin_self slot
  | none => exact pinned_put_of_unpinned slot host value world

/-- A key that is given the value that it shows. -/
theorem put_replays (logs : host.Logs holds log) (held : holds world)
    (stands : ∀ {world}, holds world → host.moment world = moment) (valid : tiers.Valid)
    (shown : tiers.value? moment key = some value) :
    Replays log moment (tiers, world) (put host key value tiers world).2 := by
  have some := Option.isSome_iff_exists.mpr ⟨value, shown⟩
  refine ⟨⟨fun other => ?_, pinned_put_shown valid shown host world⟩, ?_⟩
  · rw [value?_put logs held stands valid some]
    split
    next same => rw [same, shown]
    next => rfl
  · exact (put_spares_of_welcome logs held valid (valid.welcomes some) value).told

theorem prepare_presented (presented : tiers.Presents moment entry) (host : Host World Key Value) (world : World) :
    (prepare host entry tiers world).1 = tiers := by
  rw [prepare]
  split
  next pinned => rw [pin_of_pinned (presented.slot? pinned)]
  next => rfl

theorem putEntry_replays (logs : host.Logs holds log) (held : holds world)
    (stands : ∀ {world}, holds world → host.moment world = moment) (valid : tiers.Valid)
    (presented : tiers.Presents moment entry) :
    Replays log moment (tiers, world) (putEntry host true entry tiers world) := by
  have replays := put_replays logs (prepare_keeps logs.keeps held entry tiers) stands valid presented.value?
  rw [putEntry_of_copied (stands held) rfl]
  dsimp only
  rw [prepare_presented presented]
  exact ⟨replays.toShowsAlike, (TellsDemotions.silent (prepare_log logs held entry tiers)).trans replays.told⟩

/-- However many entries are copied that tiers present, each is still presented when its turn comes. -/
theorem putAll_replays (logs : host.Logs holds log) (held : holds world)
    (stands : ∀ {world}, holds world → host.moment world = moment) (valid : tiers.Valid)
    (presented : ∀ entry ∈ entries, tiers.Presents moment entry) :
    Replays log moment (tiers, world) (putAll host true entries tiers world) := by
  induction entries generalizing tiers world with
  | nil => exact ⟨⟨fun _ => rfl, rfl⟩, .silent rfl⟩
  | cons entry rest ih =>
      obtain ⟨own, others⟩ := List.forall_mem_cons.mp presented
      have first := putEntry_replays logs held stands valid own
      exact first.trans (ih (putEntry_keeps logs.keeps held true entry tiers) (valid.putEntry host true entry world)
        fun other listed => first.presents (others other listed))

/-- Where nothing is to be replaced, entries that tiers present are all passed over. -/
theorem putAll_of_presented (here : host.moment world = moment)
    (presented : ∀ entry ∈ entries, tiers.Presents moment entry) :
    putAll host false entries tiers world = (tiers, world) := by
  induction entries with
  | nil => rfl
  | cons entry rest ih =>
      obtain ⟨own, others⟩ := List.forall_mem_cons.mp presented
      have passed : tiers.passesOver false moment entry = true := by
        rw [passesOver, own.value?]
        rfl
      rw [putAll, putEntry_of_passed here passed]
      exact ih others

/-! ### The line of the primary tier -/

theorem putEntry_of_unpinned (unpinned : entry.tier ≠ .pinned) (host : Host World Key Value) (tiers : Tiers Key Value)
    (world : World) :
    putEntry host true entry tiers world = (put host entry.key entry.value tiers world).2 := by
  rw [putEntry_of_copied rfl rfl, prepare, if_neg unpinned]

/-- A value that is there already only counts as a use. -/
theorem primary_put_present (valid : tiers.Valid) (present : tiers.primary.peek? key = some value)
    (host : Host World Key Value) (world : World) :
    (put host key value tiers world).2.1.primary.toList = (tiers.primary.touch key).toList := by
  rw [PrimaryTier.peek?_eq] at present
  have unpinned := valid.primaryUnpinned key (List.mem_map_of_mem (Bindings.mem_of_find? present))
  have same := Bindings.reassign_self tiers.primary.keysDistinct present
  have stored : Bindings.find? key (tiers.withoutSoft key).primary.toList = some value := present
  rw [put_of_unpinned unpinned]
  dsimp only
  rw [insertPrimary_present stored, PrimaryTier.toList_touch]
  exact (PrimaryTier.insert_of_present present value).2.trans (by rw [same])

/-- A new key comes last, where there is room for it. -/
theorem primary_put_absent (valid : tiers.Valid) (unpinned : tiers.pinned.slot? key = none)
    (absent : tiers.primary.peek? key = none) (host : Host World Key Value) (value : Value) (world : World) :
    (put host key value tiers world).2.1.primary.toList =
      (tiers.primary.toList ++ [(key, value)]).rtake tiers.cacheSize := by
  rw [PrimaryTier.peek?_eq] at absent
  have settles := (valid.withoutSoft key).settles_insertPrimary host.keeps_true
    (host.clock (host.record .putCall world)) value (host.record .putCall world) trivial absent
    (Valid.absent_withoutSoft tiers key)
  rw [put_of_unpinned unpinned]
  exact settles.primary

/-- One round through entries of the primary tier, of which some have had their turn. Where a use moves an entry, they
have come to the end of the line one by one. -/
theorem primary_putAll_round {past : List (Key × Value)} (valid : tiers.Valid)
    (unpinned : ∀ entry ∈ entries, entry.tier ≠ .pinned)
    (line : tiers.primary.toList = if tiers.evictionOrder.isLru then entries.map Entry.binding ++ past
      else past ++ entries.map Entry.binding) (host : Host World Key Value) (world : World) :
    (putAll host true entries tiers world).1.primary.toList = past ++ entries.map Entry.binding ∧
      (putAll host true entries tiers world).1.pinned = tiers.pinned := by
  induction entries generalizing tiers past world with
  | nil =>
      rw [List.map_nil, List.append_nil, List.nil_append, ite_self] at line
      rw [putAll, line, List.map_nil, List.append_nil]
      exact ⟨rfl, rfl⟩
  | cons entry rest ih =>
      obtain ⟨own, others⟩ := List.forall_mem_cons.mp unpinned
      have distinct := tiers.primary.keysDistinct
      have stored : entry.binding ∈ tiers.primary.toList := by
        rw [line]
        split
        · exact List.mem_append_left _ List.mem_cons_self
        · exact List.mem_append_right _ List.mem_cons_self
      have present : tiers.primary.peek? entry.key = some entry.value := by
        rw [PrimaryTier.peek?_eq]
        exact (Bindings.find?_eq_some_iff distinct).mpr stored
      have order : (put host entry.key entry.value tiers world).2.1.evictionOrder = tiers.evictionOrder :=
        order_put host entry.key entry.value tiers world
      have turned := primary_put_present valid present host world
      rw [PrimaryTier.toList_touch] at turned
      have free := valid.primaryUnpinned entry.key (List.mem_map_of_mem stored)
      rw [putAll, putEntry_of_unpinned own, List.map_cons, List.append_cons,
        ← pinned_put_of_unpinned free host entry.value world]
      refine ih (valid.put host entry.key entry.value world) others ?_ _
      rw [turned, order, evictionOrder]
      rw [evictionOrder] at line
      split
      next lru =>
        rw [if_pos lru, List.map_cons, List.cons_append] at line
        rw [line] at distinct ⊢
        rw [← List.append_assoc]
        exact Bindings.moveToBack_cons distinct
      next fifo =>
        rw [line, if_neg fifo, List.map_cons, List.append_cons]

/-- New entries that come one after the other, each at the end of the line. -/
theorem primary_putAll_arrivals (valid : tiers.Valid) (unpinned : ∀ entry ∈ entries, entry.tier ≠ .pinned)
    (free : ∀ entry ∈ entries, tiers.pinned.slot? entry.key = none)
    (absent : ∀ entry ∈ entries, entry.key ∉ tiers.primaryKeys) (distinct : (entries.map Entry.key).Nodup)
    (host : Host World Key Value) (world : World) :
    (putAll host true entries tiers world).1.primary.toList =
      (tiers.primary.toList ++ entries.map Entry.binding).rtake tiers.cacheSize := by
  induction entries generalizing tiers world with
  | nil =>
      rw [putAll, List.map_nil, List.append_nil]
      exact (Line.rtake_of_fits valid.primaryFits).symm
  | cons entry rest ih =>
      obtain ⟨own, others⟩ := List.forall_mem_cons.mp unpinned
      obtain ⟨ownFree, othersFree⟩ := List.forall_mem_cons.mp free
      obtain ⟨ownAbsent, othersAbsent⟩ := List.forall_mem_cons.mp absent
      obtain ⟨apart, distinctRest⟩ := List.nodup_cons.mp distinct
      have missing : tiers.primary.peek? entry.key = none := by
        rw [PrimaryTier.peek?_eq]
        exact Bindings.find?_eq_none_iff.mpr ownAbsent
      have bounds := sameBounds_put host entry.key entry.value tiers world
      have line := primary_put_absent valid ownFree missing host entry.value world
      have pinned := pinned_put_of_unpinned ownFree host entry.value world
      have stillAbsent : ∀ other ∈ rest, other.key ∉ (put host entry.key entry.value tiers world).2.1.primaryKeys := by
        intro other listed member
        rw [primaryKeys, line] at member
        rcases Valid.newLine_cases (((Line.rtake_sublist _ _).map Prod.fst).subset member) with stored | same
        · exact othersAbsent other listed stored
        · exact apart (same ▸ List.mem_map_of_mem listed)
      rw [putAll, putEntry_of_unpinned own]
      rw [ih (valid.put host entry.key entry.value world) others (pinned ▸ othersFree) stillAbsent distinctRest, line,
        bounds.cacheSize, Line.rtake_rtake_append, List.append_assoc]
      rfl

theorem putAll_pins (presented : ∀ entry ∈ entries, tiers.Presents moment entry)
    (pinned : ∀ entry ∈ entries, entry.tier = .pinned) (host : Host World Key Value) (world : World) :
    (putAll host true entries tiers world).1 = tiers := by
  induction entries generalizing world with
  | nil => rfl
  | cons entry rest ih =>
      obtain ⟨own, others⟩ := List.forall_mem_cons.mp presented
      obtain ⟨tagged, also⟩ := List.forall_mem_cons.mp pinned
      have slot := own.slot? tagged
      have first : (putEntry host true entry tiers world).1 = tiers := by
        rw [putEntry_of_copied rfl rfl]
        dsimp only
        rw [prepare_presented own, put_of_pinned slot]
        exact congrArg (fun pinned => { tiers with pinned }) (PinnedTier.pin_self slot)
      rw [putAll]
      dsimp only
      rw [first]
      exact ih others also _

/-- The line of the primary tier once the live entries of the soft tier have come after what was there. -/
def requeued (tiers : Tiers Key Value) (moment : Moment) : List (Key × Value) :=
  (tiers.primary.toList ++ tiers.soft.live moment).rtake tiers.cacheSize

theorem primary_putAll_unpinned (valid : tiers.Valid) (host : Host World Key Value) (moment : Moment) (world : World) :
    (putAll host true (tagged .primary tiers.primary.toList ++ tagged .soft (tiers.soft.live moment)) tiers
      world).1.primary.toList = tiers.requeued moment := by
  have primaryTags : ∀ entry ∈ tagged .primary tiers.primary.toList, entry.tier ≠ .pinned :=
    fun entry => unpinned_of_tagged (by decide)
  have softTags : ∀ entry ∈ tagged .soft (tiers.soft.live moment), entry.tier ≠ .pinned :=
    fun entry => unpinned_of_tagged (by decide)
  have whole : tiers.primary.toList = if tiers.evictionOrder.isLru
      then (tagged .primary tiers.primary.toList).map Entry.binding ++ []
      else [] ++ (tagged .primary tiers.primary.toList).map Entry.binding := by
    rw [bindings_tagged, List.append_nil, List.nil_append, ite_self]
  obtain ⟨line, slots⟩ := primary_putAll_round valid primaryTags whole host world
  have validTurned := valid.putAll host true (tagged .primary tiers.primary.toList) world
  have bounds := sameBounds_putAll host true (tagged .primary tiers.primary.toList) tiers world
  rw [putAll_append]
  dsimp only
  generalize putAll host true (tagged .primary tiers.primary.toList) tiers world = turned
    at line slots validTurned bounds ⊢
  rw [bindings_tagged, List.nil_append] at line
  have stored : ∀ entry ∈ tagged .soft (tiers.soft.live moment), entry.key ∈ tiers.softKeys :=
    fun entry listed => (tiers.soft.keys_live moment).subset (List.mem_map_of_mem (mem_of_tagged listed))
  have free : ∀ entry ∈ tagged .soft (tiers.soft.live moment), turned.1.pinned.slot? entry.key = none := by
    rw [slots]
    exact fun entry listed => valid.softUnpinned entry.key (stored entry listed)
  have absent : ∀ entry ∈ tagged .soft (tiers.soft.live moment), entry.key ∉ turned.1.primaryKeys := by
    intro entry listed member
    rw [primaryKeys, line] at member
    exact valid.primarySoft entry.key member (stored entry listed)
  have distinct : ((tagged .soft (tiers.soft.live moment)).map Entry.key).Nodup := by
    rw [keys_tagged]
    exact (tiers.soft.keys_live moment).nodup tiers.soft.keysDistinct
  rw [primary_putAll_arrivals validTurned softTags free absent distinct, line, bindings_tagged, bounds.cacheSize, requeued]

/-- Pins and primary entries leave the primary tier as it was, and then every live entry of the soft tier comes into it. -/
theorem primary_putAll_entries (valid : tiers.Valid) (host : Host World Key Value) (moment : Moment) (world : World) :
    (putAll host true (tiers.entries moment) tiers world).1.primary.toList = tiers.requeued moment := by
  have presented : ∀ entry ∈ tiers.entries moment, tiers.Presents moment entry := fun _ => valid.presents
  rw [entries_tagged] at presented ⊢
  have pins := putAll_pins (fun entry listed => presented entry (List.mem_append_left _ listed))
    (fun entry => tier_of_tagged) host world
  rw [putAll_append]
  dsimp only
  rw [pins]
  exact primary_putAll_unpinned valid host moment _

/-- What comes of copying the entries of tiers onto themselves, where any value is replaced. Where none is, nothing comes of
it. -/
theorem copying_own_entries (valid : tiers.Valid) (logs : host.Logs holds log) (held : holds world)
    (stands : ∀ {world}, holds world → host.moment world = moment) :
    let copied := putAll host true (tiers.entries moment) tiers world
    Replays log moment (tiers, world) copied ∧ copied.1.primary.toList = tiers.requeued moment ∧
      putAll host false (tiers.entries moment) tiers world = (tiers, world) :=
  ⟨putAll_replays logs held stands valid fun _ => valid.presents, primary_putAll_entries valid host moment world,
    putAll_of_presented (stands held) fun _ => valid.presents⟩

/-! ### After a purge -/

/-- Tiers whose soft one is purged. -/
def purged (tiers : Tiers Key Value) (moment : Moment) : Tiers Key Value :=
  { tiers with soft := (tiers.soft.purge moment).2 }

theorem live_purged (tiers : Tiers Key Value) (moment : Moment) :
    (tiers.purged moment).soft.live moment = tiers.soft.live moment := by
  rw [SoftTier.live_eq_visible, SoftTier.live_eq_visible, purged, SoftTier.visible_purge]

theorem entries_purged (tiers : Tiers Key Value) (moment : Moment) :
    (tiers.purged moment).entries moment = tiers.entries moment := by
  rw [entries_tagged, entries_tagged, live_purged]
  rfl

theorem requeued_purged (tiers : Tiers Key Value) (moment : Moment) :
    (tiers.purged moment).requeued moment = tiers.requeued moment := by
  rw [requeued, live_purged]
  rfl

theorem Valid.purged (valid : tiers.Valid) (moment : Moment) : (tiers.purged moment).Valid := by
  have purges := valid.purgeSoft (.still moment) .zero
  rw [purgeSoft_snd] at purges
  exact purges

theorem showsAlike_purged (tiers : Tiers Key Value) (moment : Moment) : ShowsAlike moment tiers (tiers.purged moment) where
  value? key := by
    rw [← find?_entries, ← find?_entries, entries_purged]
  pinned := rfl

/-- What comes of tiers that are copied onto themselves at a moment by a writer. -/
inductive CopiedOver (moment : Moment) (tiers : Tiers Key Value) : Bool → Tiers Key Value → Prop where
  | replaced {after : Tiers Key Value} (alike : ShowsAlike moment tiers after)
      (primary : after.primary.toList = tiers.requeued moment) : CopiedOver moment tiers true after
  | passed : CopiedOver moment tiers false (tiers.purged moment)

omit [DecidableEq Key] in
/-- A still host is a ledger that nothing is written down in. -/
theorem ledger_simulates_still (moment : Moment) :
    (Host.ledger : Host (Ledger Key Value) Key Value).Simulates (.still moment) fun ledger tally =>
      ledger.moment = moment ∧ ledger.tally = tally where
  clock := by
    rintro ledger _ ⟨rfl, -⟩
    rfl
  epoch := by
    rintro ledger _ ⟨rfl, -⟩
    rfl
  record := by
    rintro recording ledger _ ⟨rfl, rfl⟩
    exact ⟨rfl, rfl⟩
  notify := by
    rintro event ledger _ ⟨rfl, rfl⟩
    exact ⟨rfl, rfl⟩

theorem operateHeld_copiesOver (valid : tiers.Valid) (moment : Moment) (replaceExisting : Bool)
    (tally : Metrics.Tally) :
    CopiedOver moment tiers replaceExisting
      (operateHeld (.still moment) (.putAll (tiers.entries moment) replaceExisting) tiers tally).2.1 := by
  have validPurged := valid.purged moment
  have entries := entries_purged tiers moment
  have still : (operateHeld (.still moment) (.putAll (tiers.entries moment) replaceExisting) tiers tally).2.1 =
      (putAll (.still moment) replaceExisting (tiers.entries moment) (tiers.purged moment)
        (purgeSoft (.still moment) tiers tally).2.2).1 := by
    rw [operateHeld, operatePurged, operate, purgeSoft_snd]
    rfl
  rw [still]
  generalize (purgeSoft (.still moment) tiers tally).2.2 = counted
  cases replaceExisting with
  | true =>
      have alike : ShowsAlike moment (tiers.purged moment)
          (putAll (.still moment) true (tiers.entries moment) (tiers.purged moment) counted).1 := by
        let ledger : Ledger Key Value := ⟨moment, counted, []⟩
        have replays := putAll_replays (Ledger.logs moment) (rfl : ledger.moment = moment) (fun still => still) validPurged
          (fun _ => validPurged.presents)
        have same := operate_simulates (ledger_simulates_still moment) (.putAll (tiers.entries moment) true)
          (tiers.purged moment) (⟨rfl, rfl⟩ : ledger.moment = moment ∧ ledger.tally = counted)
        rw [entries] at replays
        exact same.2.1 ▸ replays.toShowsAlike
      have primary := primary_putAll_entries validPurged (.still moment) moment counted
      rw [entries, requeued_purged] at primary
      exact .replaced ((showsAlike_purged tiers moment).trans alike) primary
  | false =>
      have passed := @putAll_of_presented _ _ _ _ (Host.still moment) _ (tiers.purged moment) moment counted rfl
        (fun _ => validPurged.presents)
      rw [entries] at passed
      rw [passed]
      exact .passed

end Tiers

end LayeredCache
