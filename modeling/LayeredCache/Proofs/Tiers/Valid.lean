import LayeredCache.Proofs.KeyedQueue.Audit
import LayeredCache.Proofs.Tiers.Cases
import LayeredCache.Proofs.Tiers.Settling

/-! Valid tiers: the bounded tiers stay within their capacities, dead entries included, and no key is kept twice, a
pin without a value and a dead entry included. Every operation keeps tiers valid, whatever its host does. -/

set_option autoImplicit false

namespace LayeredCache

variable {World Key Value : Type} [DecidableEq Key]

theorem PinnedTier.slot?_eq_none_iff {tier : PinnedTier Key Value} {key : Key} :
    tier.slot? key = none ↔ key ∉ tier.keys :=
  Directory.find?_eq_none_iff

namespace Tiers

/-- The keys that the bounded tiers store, live or not. -/
def primaryKeys (tiers : Tiers Key Value) : List Key := tiers.primary.toList.map Prod.fst

def softKeys (tiers : Tiers Key Value) : List Key := tiers.soft.toList.map Prod.fst

structure Valid (tiers : Tiers Key Value) : Prop where
  primaryFits : tiers.primary.toList.length ≤ tiers.primary.capacity
  softFits : tiers.soft.toList.length ≤ tiers.soft.capacity
  primaryUnpinned : ∀ key ∈ tiers.primaryKeys, tiers.pinned.slot? key = none
  softUnpinned : ∀ key ∈ tiers.softKeys, tiers.pinned.slot? key = none
  primarySoft : ∀ key ∈ tiers.primaryKeys, key ∉ tiers.softKeys

namespace Valid

variable {host : Host World Key Value} {holds : World → Prop} {tiers after : Tiers Key Value}
  {key : Key}

theorem empty (order : EvictionOrder) (cacheSize softReferenceSize : Nat) (ttl : Option Span) :
    (Tiers.empty order cacheSize softReferenceSize ttl : Tiers Key Value).Valid where
  primaryFits := Nat.zero_le _
  softFits := Nat.zero_le _
  primaryUnpinned := by
    intro key member
    cases member
  softUnpinned := by
    intro key member
    cases member
  primarySoft := by
    intro key member
    cases member

/-- The three sets of keys are free of duplicates and of each other. -/
theorem keysDistinct (valid : tiers.Valid) :
    (tiers.pinnedKeys ++ tiers.primaryKeys ++ tiers.softKeys).Nodup := by
  rw [List.nodup_append, List.nodup_append]
  refine ⟨⟨tiers.pinned.slots.distinct, tiers.primary.keysDistinct, ?_⟩,
    tiers.soft.keysDistinct, ?_⟩
  · intro pinned registered stored member same
    subst same
    exact PinnedTier.slot?_eq_none_iff.mp (valid.primaryUnpinned pinned member) registered
  · intro other either soft member same
    subst same
    rcases List.mem_append.mp either with registered | stored
    · exact PinnedTier.slot?_eq_none_iff.mp (valid.softUnpinned other member) registered
    · exact valid.primarySoft other stored member

theorem primaryKeys_of_peek {value : Value} (present : tiers.primary.peek? key = some value) :
    key ∈ tiers.primaryKeys := by
  rw [PrimaryTier.peek?_eq] at present
  exact List.mem_map_of_mem (Bindings.mem_of_find? present)

theorem softAbsent_of_peek (valid : tiers.Valid) {value : Value}
    (present : tiers.primary.peek? key = some value) : key ∉ tiers.softKeys :=
  valid.primarySoft key (primaryKeys_of_peek present)

theorem softAbsent_of_pinned (valid : tiers.Valid) {slot : Option Value}
    (pinned : tiers.pinned.slot? key = some slot) : key ∉ tiers.softKeys := by
  intro member
  have unpinned := valid.softUnpinned key member
  rw [pinned] at unpinned
  cases unpinned

theorem audit_eq_ok (valid : tiers.Valid) : tiers.audit = .ok () := by
  have primary : tiers.primary.audit = .ok () := by
    have within : ¬tiers.primary.capacity < tiers.primary.size := by
      rw [PrimaryTier.size, KeyedQueue.size_eq]
      exact Nat.not_lt.mpr valid.primaryFits
    rw [PrimaryTier.audit, KeyedQueue.audit_eq_ok, if_neg within]
    rfl
  have soft : tiers.soft.audit = .ok () := by
    have within : ¬tiers.soft.capacity < tiers.soft.storedSize := by
      rw [SoftTier.storedSize, KeyedQueue.size_eq]
      exact Nat.not_lt.mpr valid.softFits
    rw [SoftTier.audit, KeyedQueue.audit_eq_ok, if_neg within]
    rfl
  have absent : ∀ key, tiers.primary.contains key = true → key ∈ tiers.primaryKeys := by
    intro key found
    rw [PrimaryTier.contains, KeyedQueue.contains_eq] at found
    exact Bindings.find?_isSome_iff.mp found
  have pinnedApart : ¬tiers.pinned.keys.any tiers.primary.contains = true := by
    rw [List.any_eq_true]
    rintro ⟨key, registered, found⟩
    exact PinnedTier.slot?_eq_none_iff.mp (valid.primaryUnpinned key (absent key found)) registered
  have softApart : ¬(tiers.soft.toList.any fun entry =>
      tiers.primary.contains entry.1 || (tiers.pinned.value? entry.1).isSome) = true := by
    rw [List.any_eq_true]
    rintro ⟨entry, member, found⟩
    have stored : entry.1 ∈ tiers.softKeys := List.mem_map_of_mem member
    rw [Bool.or_eq_true] at found
    rcases found with primaryHas | pinnedHas
    · exact valid.primarySoft entry.1 (absent entry.1 primaryHas) stored
    · rw [PinnedTier.value?, valid.softUnpinned entry.1 stored] at pinnedHas
      cases pinnedHas
  rw [audit, primary, soft, if_neg pinnedApart, if_neg softApart]
  rfl

/-- Tiers stay valid that lose entries or pins, within whatever capacities they then have. -/
theorem narrow (valid : tiers.Valid)
    (pinned : ∀ key, tiers.pinned.slot? key = none → after.pinned.slot? key = none)
    (primary : ∀ key ∈ after.primaryKeys, key ∈ tiers.primaryKeys)
    (primaryFits : after.primary.toList.length ≤ after.primary.capacity)
    (soft : ∀ key ∈ after.softKeys, key ∈ tiers.softKeys)
    (softFits : after.soft.toList.length ≤ after.soft.capacity) : after.Valid where
  primaryFits := primaryFits
  softFits := softFits
  primaryUnpinned key member := pinned key (valid.primaryUnpinned key (primary key member))
  softUnpinned key member := pinned key (valid.softUnpinned key (soft key member))
  primarySoft key member stored := valid.primarySoft key (primary key member) (soft key stored)

/-- A settled line of entries that no other tier holds leaves valid tiers. -/
theorem of_settles {stamps : Moment → Prop} {line : List (Key × Value)}
    (settles : Settles stamps line tiers after) (distinct : (line.map Prod.fst).Nodup)
    (softUnpinned : ∀ key ∈ tiers.softKeys, tiers.pinned.slot? key = none)
    (unpinned : ∀ key ∈ line.map Prod.fst, tiers.pinned.slot? key = none)
    (apart : ∀ key ∈ line.map Prod.fst, key ∉ tiers.softKeys) : after.Valid := by
  obtain ⟨demoted, surplus, -, stored⟩ := settles.soft
  have primaryLine : ∀ key ∈ after.primaryKeys,
      key ∈ (line.rtake tiers.primary.capacity).map Prod.fst := by
    intro key member
    rw [primaryKeys, settles.primary] at member
    exact member
  have softLine : ∀ key ∈ after.softKeys, key ∈ tiers.softKeys ∨
      key ∈ (line.rdrop tiers.primary.capacity).map Prod.fst := by
    intro key member
    rw [softKeys, stored] at member
    have included := ((Line.rtake_sublist _ _).map Prod.fst).subset member
    rw [List.map_append, List.mem_append] at included
    rcases included with old | added
    · exact .inl old
    · right
      rw [← surplus, keys_unstamped]
      exact added
  have kept : ∀ key ∈ (line.rtake tiers.primary.capacity).map Prod.fst, key ∈ line.map Prod.fst :=
    fun key member => ((Line.rtake_sublist line _).map Prod.fst).subset member
  have dropped : ∀ key ∈ (line.rdrop tiers.primary.capacity).map Prod.fst, key ∈ line.map Prod.fst :=
    fun key member => ((Line.rdrop_sublist line _).map Prod.fst).subset member
  constructor
  · rw [settles.primary, settles.cacheSize]
    exact Line.length_rtake_le _ _
  · rw [stored, settles.softReferenceSize]
    exact Line.length_rtake_le _ _
  · intro key member
    rw [settles.pinned]
    exact unpinned key (kept key (primaryLine key member))
  · intro key member
    rw [settles.pinned]
    rcases softLine key member with old | added
    · exact softUnpinned key old
    · exact unpinned key (dropped key added)
  · intro key member storedSoft
    have inPrimary := primaryLine key member
    rcases softLine key storedSoft with old | added
    · exact apart key (kept key inPrimary) old
    · -- the kept and the dropped part of the line share no key
      rw [← Line.rdrop_append_rtake line tiers.primary.capacity, List.map_append,
        List.nodup_append] at distinct
      exact distinct.2.2 key added key inPrimary rfl

theorem withoutSoft (valid : tiers.Valid) (key : Key) : (tiers.withoutSoft key).Valid := by
  refine valid.narrow (fun _ unpinned => unpinned) (fun _ member => member) valid.primaryFits ?_ ?_
  · intro other member
    rw [softKeys, toList_withoutSoft] at member
    exact (Bindings.mem_keys_erase.mp member).1
  · rw [toList_withoutSoft]
    exact (Bindings.length_erase_le key _).trans valid.softFits

omit [DecidableEq Key] in
theorem absent_withoutSoft [DecidableEq Key] (tiers : Tiers Key Value) (key : Key) :
    key ∉ (tiers.withoutSoft key).softKeys := by
  rw [softKeys, toList_withoutSoft]
  intro member
  exact (Bindings.mem_keys_erase.mp member).2 rfl

theorem newLine_cases {value : Value} {other : Key}
    (member : other ∈ (tiers.primary.toList ++ [(key, value)]).map Prod.fst) :
    other ∈ tiers.primaryKeys ∨ other = key := by
  rw [List.map_append, List.map_singleton, List.mem_append, List.mem_singleton] at member
  exact member

theorem newLine_apart (valid : tiers.Valid) (softAbsent : key ∉ tiers.softKeys) (value : Value)
    (other : Key) (member : other ∈ (tiers.primary.toList ++ [(key, value)]).map Prod.fst) :
    other ∉ tiers.softKeys := by
  rcases newLine_cases member with stored | rfl
  · exact valid.primarySoft other stored
  · exact softAbsent

theorem settles_insertPrimary (valid : tiers.Valid) (keeps : host.Keeps holds) (instant : Instant)
    (value : Value) (world : World) (held : holds world)
    (absent : Bindings.find? key tiers.primary.toList = none) (softAbsent : key ∉ tiers.softKeys) :
    Settles (StampedAt host holds instant) (tiers.primary.toList ++ [(key, value)]) tiers
      (Tiers.insertPrimary host instant key value tiers world).2.1 :=
  insertPrimary_settles keeps instant value held valid.primaryFits valid.softFits absent
    (valid.newLine_apart softAbsent value)

theorem insertPrimary (valid : tiers.Valid) (unpinned : tiers.pinned.slot? key = none)
    (absent : key ∉ tiers.softKeys) (host : Host World Key Value) (instant : Instant) (value : Value)
    (world : World) : (Tiers.insertPrimary host instant key value tiers world).2.1.Valid := by
  cases found : Bindings.find? key tiers.primary.toList with
  | none =>
      have settles := valid.settles_insertPrimary host.keeps_true instant value world trivial found absent
      refine of_settles settles (PrimaryTier.keysDistinct_concat found) valid.softUnpinned ?_
        (valid.newLine_apart absent value)
      intro other member
      rcases newLine_cases member with stored | rfl
      · exact valid.primaryUnpinned other stored
      · exact unpinned
  | some old =>
      rw [insertPrimary_present found]
      have present : key ∈ tiers.primaryKeys := List.mem_map_of_mem (Bindings.mem_of_find? found)
      refine valid.narrow (fun _ unpinned => unpinned) ?_ ?_ (fun _ member => member) valid.softFits
      · intro other member
        obtain ⟨entry, stored, rfl⟩ := List.mem_map.mp member
        rcases PrimaryTier.mem_insert_present found value stored with rfl | ⟨-, kept⟩
        · exact present
        · exact List.mem_map_of_mem kept
      · rw [PrimaryTier.length_insert_present found, PrimaryTier.capacity_insert]
        exact valid.primaryFits

theorem get (valid : tiers.Valid) (host : Host World Key Value) (key : Key) (world : World) :
    (Tiers.get host key tiers world).2.1.Valid := by
  cases pinned : tiers.pinned.slot? key with
  | some slot =>
      rw [get_of_pinned pinned]
      exact valid
  | none =>
      cases found : tiers.primary.peek? key with
      | some value =>
          rw [get_of_primary pinned found]
          refine valid.narrow (fun _ unpinned => unpinned) ?_ ?_ (fun _ member => member) valid.softFits
          · intro other member
            obtain ⟨entry, stored, rfl⟩ := List.mem_map.mp member
            exact List.mem_map_of_mem (PrimaryTier.mem_touch stored)
          · rw [PrimaryTier.length_touch, PrimaryTier.capacity_touch]
            exact valid.primaryFits
      | none =>
          cases live : tiers.soft.peek? (host.moment (host.record .getCall world)) key with
          | some value =>
              rw [get_of_soft pinned found live]
              exact (valid.withoutSoft key).insertPrimary pinned (absent_withoutSoft tiers key) host _ _ _
          | none =>
              rw [get_of_missing pinned found live]
              exact valid.withoutSoft key

theorem put (valid : tiers.Valid) (host : Host World Key Value) (key : Key) (value : Value)
    (world : World) : (Tiers.put host key value tiers world).2.1.Valid := by
  cases pinned : tiers.pinned.slot? key with
  | some slot =>
      rw [put_of_pinned pinned]
      refine valid.narrow ?_ (fun _ member => member) valid.primaryFits (fun _ member => member)
        valid.softFits
      intro other unpinned
      have differs : other ≠ key := by
        rintro rfl
        rw [pinned] at unpinned
        cases unpinned
      rw [PinnedTier.slot?_pin, if_neg differs]
      exact unpinned
  | none =>
      rw [put_of_unpinned pinned]
      exact (valid.withoutSoft key).insertPrimary pinned (absent_withoutSoft tiers key) host _ _ _

theorem remove (valid : tiers.Valid) (host : Host World Key Value) (key : Key) (world : World) :
    (Tiers.remove host key tiers world).2.1.Valid := by
  rw [remove_eq]
  have without := valid.withoutSoft key
  refine without.narrow ?_ ?_ ?_ (fun _ member => member) without.softFits
  · intro other unpinned
    rw [PinnedTier.slot?_unpin]
    split
    · rfl
    · exact unpinned
  · intro other member
    rw [primaryKeys, (tiers.primary.remove_eq key).2] at member
    exact (Bindings.mem_keys_erase.mp member).1
  · rw [(tiers.primary.remove_eq key).2]
    exact (Bindings.length_erase_le key _).trans valid.primaryFits

/-- A key that no bounded tier holds can be pinned. -/
theorem pinned (valid : tiers.Valid) (primaryAbsent : key ∉ tiers.primaryKeys)
    (softAbsent : key ∉ tiers.softKeys) (value : Option Value) :
    ({ tiers with pinned := tiers.pinned.pin key value } : Tiers Key Value).Valid where
  primaryFits := valid.primaryFits
  softFits := valid.softFits
  primaryUnpinned other member := by
    have differs : other ≠ key := fun same => primaryAbsent (same ▸ member)
    rw [PinnedTier.slot?_pin, if_neg differs]
    exact valid.primaryUnpinned other member
  softUnpinned other member := by
    have differs : other ≠ key := fun same => softAbsent (same ▸ member)
    rw [PinnedTier.slot?_pin, if_neg differs]
    exact valid.softUnpinned other member
  primarySoft := valid.primarySoft

theorem pin (valid : tiers.Valid) (host : Host World Key Value) (key : Key) (world : World) :
    (Tiers.pin host key tiers world).2.1.Valid := by
  cases slot : tiers.pinned.slot? key with
  | some stored =>
      rw [pin_of_pinned slot]
      exact valid
  | none =>
      cases found : tiers.primary.peek? key with
      | some value =>
          rw [pin_of_primary slot found]
          have removed : ({ tiers with primary := (tiers.primary.remove key).2 } : Tiers Key Value).Valid := by
            refine valid.narrow (fun _ unpinned => unpinned) ?_ ?_ (fun _ member => member) valid.softFits
            · intro other member
              rw [primaryKeys, (tiers.primary.remove_eq key).2] at member
              exact (Bindings.mem_keys_erase.mp member).1
            · rw [(tiers.primary.remove_eq key).2]
              exact (Bindings.length_erase_le key _).trans valid.primaryFits
          refine removed.pinned ?_ (valid.softAbsent_of_peek found) (some value)
          rw [primaryKeys, (tiers.primary.remove_eq key).2]
          intro member
          exact (Bindings.mem_keys_erase.mp member).2 rfl
      | none =>
          rw [pin_of_absent slot found]
          rw [PrimaryTier.peek?_eq] at found
          exact (valid.withoutSoft key).pinned (Bindings.find?_eq_none_iff.mp found)
            (absent_withoutSoft tiers key) _

theorem unpinned (valid : tiers.Valid) (key : Key) :
    ({ tiers with pinned := (tiers.pinned.unpin key).2 } : Tiers Key Value).Valid := by
  refine valid.narrow ?_ (fun _ member => member) valid.primaryFits (fun _ member => member)
    valid.softFits
  intro other unpinned
  rw [PinnedTier.slot?_unpin]
  split
  · rfl
  · exact unpinned

theorem unpin (valid : tiers.Valid) (host : Host World Key Value) (key : Key) (world : World) :
    (Tiers.unpin host key tiers world).2.1.Valid := by
  cases slot : tiers.pinned.slot? key with
  | none =>
      rw [unpin_of_unpinned slot]
      exact valid
  | some stored =>
      cases stored with
      | none =>
          rw [unpin_of_empty slot]
          exact valid.unpinned key
      | some value =>
          rw [unpin_of_valued slot]
          refine (valid.unpinned key).insertPrimary ?_ (valid.softAbsent_of_pinned slot) host _ _ _
          rw [PinnedTier.slot?_unpin, if_pos rfl]

theorem putEntry (valid : tiers.Valid) (host : Host World Key Value) (replaceExisting : Bool)
    (entry : Entry Key Value) (world : World) :
    (Tiers.putEntry host replaceExisting entry tiers world).1.Valid := by
  simp only [Tiers.putEntry]
  split
  · exact valid
  · split
    · exact (valid.pin host entry.key world).put host _ _ _
    · exact valid.put host _ _ _

theorem putAll (valid : tiers.Valid) (host : Host World Key Value) (replaceExisting : Bool)
    (entries : List (Entry Key Value)) (world : World) :
    (Tiers.putAll host replaceExisting entries tiers world).1.Valid := by
  induction entries generalizing tiers world with
  | nil => exact valid
  | cons entry rest ih => exact ih (valid.putEntry host replaceExisting entry world) _

theorem clear (valid : tiers.Valid) (host : Host World Key Value) (world : World) :
    (Tiers.clear host tiers world).1.Valid := by
  refine valid.narrow (fun _ _ => rfl) ?_ (Nat.zero_le _) ?_ (Nat.zero_le _)
  · intro key member
    cases member
  · intro key member
    cases member

/-- Under a new capacity the line of the primary tier settles anew. -/
theorem settles_setCacheSize (valid : tiers.Valid) (keeps : host.Keeps holds) (capacity : Nat)
    (world : World) (held : holds world) :
    Settles (StampedAt host holds (host.clock world)) tiers.primary.toList
      { tiers with primary := { tiers.primary with capacity } }
      (Tiers.setCacheSize host capacity tiers world).1 :=
  setCacheSize_settles keeps capacity held valid.softFits valid.primarySoft

theorem setCacheSize (valid : tiers.Valid) (host : Host World Key Value) (capacity : Nat)
    (world : World) : (Tiers.setCacheSize host capacity tiers world).1.Valid :=
  of_settles (valid.settles_setCacheSize host.keeps_true capacity world trivial)
    tiers.primary.keysDistinct valid.softUnpinned valid.primaryUnpinned valid.primarySoft

theorem setSoftReferenceSize (valid : tiers.Valid) (host : Host World Key Value) (capacity : Nat)
    (world : World) : (Tiers.setSoftReferenceSize host capacity tiers world).1.Valid := by
  have kept := (tiers.soft.setCapacity_eq capacity).2
  refine valid.narrow (fun _ unpinned => unpinned) (fun _ member => member) valid.primaryFits ?_ ?_
  · intro key member
    rw [softKeys, Tiers.setSoftReferenceSize] at member
    dsimp only at member
    rw [kept] at member
    exact ((List.drop_sublist _ _).map Prod.fst).subset member
  · rw [Tiers.setSoftReferenceSize]
    dsimp only
    rw [kept]
    exact Line.length_rtake_le _ _

theorem purgeSoft (valid : tiers.Valid) (host : Host World Key Value) (world : World) :
    (Tiers.purgeSoft host tiers world).2.1.Valid := by
  have kept := (tiers.soft.purge_eq (host.moment world)).2
  rw [purgeSoft_snd]
  refine valid.narrow (fun _ unpinned => unpinned) (fun _ member => member) valid.primaryFits ?_ ?_
  · intro key member
    rw [softKeys, kept] at member
    exact ((List.dropWhile_sublist _).map Prod.fst).subset member
  · rw [kept]
    exact (List.dropWhile_sublist _).length_le.trans valid.softFits

end Valid

end Tiers

end LayeredCache
