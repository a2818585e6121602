import LayeredCache.Proofs.Tier.Ageing
import LayeredCache.Proofs.Tiers.Operation

/-! What readers of tiers are told. Each of them walks the tiers in a way of its own, past pins without a value and past
dead entries, and all of them tell of the same entries. -/

set_option autoImplicit false

namespace LayeredCache

variable {World Key Value : Type}

/-- A key with its value, wherever it lies. -/
def Entry.binding (entry : Entry Key Value) : Key × Value := (entry.key, entry.value)

/-- The keys that hold a value, in the order of all pinned keys. -/
theorem PinnedTier.keys_toList (tier : PinnedTier Key Value) : (tier.toList.map Prod.fst).Sublist tier.keys := by
  unfold toList keys Directory.keys
  induction tier.slots.entries with
  | nil => exact .slnil
  | cons binding rest ih =>
      obtain ⟨key, slot⟩ := binding
      cases slot with
      | none => exact .cons key ih
      | some value => exact .cons_cons key ih

variable [DecidableEq Key]

theorem PinnedTier.find?_toList (tier : PinnedTier Key Value) (key : Key) :
    Bindings.find? key tier.toList = tier.value? key := by
  refine Option.ext fun value => ?_
  rw [Bindings.find?_eq_some_iff (tier.keys_toList.nodup tier.slots.distinct), mem_toList_iff, value?,
    Option.join_eq_some_iff]

namespace SoftTier

variable (tier : SoftTier Key Value) (moment : Moment)

theorem keys_live : ((tier.live moment).map Prod.fst).Sublist (tier.toList.map Prod.fst) := by
  rw [live, List.map_map]
  exact List.filter_sublist.map Prod.fst

theorem find?_live (key : Key) : Bindings.find? key (tier.live moment) = tier.peek? moment key := by
  refine Option.ext fun value => ?_
  rw [Bindings.find?_eq_some_iff ((tier.keys_live moment).nodup tier.keysDistinct), peek?_eq_some_iff,
    live_eq_visible, List.mem_map]
  constructor
  · rintro ⟨⟨other, stored⟩, member, same⟩
    obtain ⟨rfl, rfl⟩ := Prod.mk.inj same
    exact ⟨stored.stamp, member⟩
  · rintro ⟨stamp, member⟩
    exact ⟨_, member, rfl⟩

/-- A purge changes nothing that can be seen at its moment. -/
theorem visible_purge : (tier.purge moment).2.visible moment = tier.visible moment := by
  have kept : (tier.purge moment).2.visible moment =
      (tier.toList.dropWhile fun entry => !tier.isLive moment entry).filter (tier.isLive moment) := by
    rw [visible, (tier.purge_eq moment).2]
    rfl
  rw [kept, visible]
  induction tier.toList with
  | nil => rfl
  | cons first rest ih =>
      cases live : tier.isLive moment first with
      | true => rw [List.dropWhile_cons_of_neg (by simp [live])]
      | false => rw [List.dropWhile_cons_of_pos (by simp [live]), ih, List.filter_cons_of_neg (by simp [live])]

end SoftTier

namespace Tiers

variable {tiers : Tiers Key Value} {moment : Moment} {key : Key}

/-- The value that a key shows at a moment, in whichever tier. -/
def value? (tiers : Tiers Key Value) (moment : Moment) (key : Key) : Option Value :=
  (tiers.pinned.value? key).or ((tiers.primary.peek? key).or (tiers.soft.peek? moment key))

theorem bindings_entries (tiers : Tiers Key Value) (moment : Moment) :
    (tiers.entries moment).map Entry.binding =
      tiers.pinned.toList ++ (tiers.primary.toList ++ tiers.soft.live moment) := by
  simp only [entries, List.map_append, List.map_map, List.append_assoc]
  exact congrArg₂ _ (List.map_id _) (congrArg₂ _ (List.map_id _) (List.map_id _))

theorem find?_entries (tiers : Tiers Key Value) (moment : Moment) (key : Key) :
    Bindings.find? key ((tiers.entries moment).map Entry.binding) = tiers.value? moment key := by
  rw [bindings_entries, Bindings.find?_append, Bindings.find?_append, PinnedTier.find?_toList, SoftTier.find?_live,
    ← PrimaryTier.peek?_eq, value?]

theorem Valid.distinct_entries (valid : tiers.Valid) (moment : Moment) :
    ((tiers.entries moment).map Entry.key).Nodup := by
  have shown : (tiers.entries moment).map Entry.key =
      tiers.pinned.toList.map Prod.fst ++ tiers.primaryKeys ++ (tiers.soft.live moment).map Prod.fst := by
    simp only [entries, List.map_append, List.map_map, primaryKeys]
    rfl
  have included := (tiers.pinned.keys_toList.append (.refl tiers.primaryKeys)).append (tiers.soft.keys_live moment)
  rw [shown]
  exact included.nodup valid.keysDistinct

/-- A key shows a value where a tier holds it, the soft tier a live one. -/
theorem Valid.value?_eq_some_iff (valid : tiers.Valid) {value : Value} :
    tiers.value? moment key = some value ↔
      tiers.pinned.slot? key = some (some value) ∨
        (key, value) ∈ tiers.primary.toList ∨ (key, value) ∈ tiers.soft.live moment := by
  have distinct : (((tiers.entries moment).map Entry.binding).map Prod.fst).Nodup := by
    rw [List.map_map]
    exact valid.distinct_entries moment
  rw [← find?_entries, Bindings.find?_eq_some_iff distinct, bindings_entries, List.mem_append, List.mem_append,
    PinnedTier.mem_toList_iff]

theorem value?_of_pinned (valid : tiers.Valid) {slot : Option Value} (pinned : tiers.pinned.slot? key = some slot)
    (moment : Moment) : tiers.value? moment key = slot := by
  cases slot with
  | some value => rw [value?, PinnedTier.value?, pinned, Option.join_some, Option.some_or]
  | none =>
      have primary : tiers.primary.peek? key = none := by
        rw [PrimaryTier.peek?_eq, Bindings.find?_eq_none_iff]
        intro stored
        rw [valid.primaryUnpinned key stored] at pinned
        cases pinned
      have soft : tiers.soft.peek? moment key = none := by
        rw [← SoftTier.find?_live, Bindings.find?_eq_none_iff]
        exact fun shown => valid.softAbsent_of_pinned pinned ((tiers.soft.keys_live moment).subset shown)
      rw [value?, PinnedTier.value?, pinned, primary, soft]
      rfl

theorem value?_of_unpinned (unpinned : tiers.pinned.slot? key = none) (moment : Moment) :
    tiers.value? moment key = (tiers.primary.peek? key).or (tiers.soft.peek? moment key) := by
  rw [value?, PinnedTier.value?, unpinned]
  rfl

theorem isSome_value? (tiers : Tiers Key Value) (moment : Moment) (key : Key) :
    (tiers.value? moment key).isSome = tiers.containsKey moment key := by
  rw [value?, Option.isSome_or, Option.isSome_or, containsKey, Bool.or_assoc, PrimaryTier.contains,
    KeyedQueue.contains_eq, PrimaryTier.peek?_eq]
  rfl

theorem containsKey_iff : tiers.containsKey moment key = true ↔ key ∈ (tiers.entries moment).map Entry.key := by
  rw [← isSome_value?, ← find?_entries, Bindings.find?_isSome_iff, List.map_map]
  rfl

/-- A purge leaves every key the value that it shows at the moment. -/
theorem value?_purgeSoft (host : Host World Key Value) (tiers : Tiers Key Value) (world : World) (key : Key) :
    (purgeSoft host tiers world).2.1.value? (host.moment world) key = tiers.value? (host.moment world) key := by
  rw [purgeSoft_snd, value?, value?, SoftTier.peek?_congr (tiers.soft.visible_purge (host.moment world))]

theorem get_fst (valid : tiers.Valid) (host : Host World Key Value) (world : World) (key : Key) :
    (get host key tiers world).1 = tiers.value? (host.moment (host.record .getCall world)) key := by
  cases pinned : tiers.pinned.slot? key with
  | some slot => rw [get_of_pinned pinned, value?_of_pinned valid pinned]
  | none =>
      rw [value?_of_unpinned pinned]
      cases present : tiers.primary.peek? key with
      | some value =>
          rw [get_of_primary pinned present]
          rfl
      | none =>
          cases live : tiers.soft.peek? (host.moment (host.record .getCall world)) key with
          | some value =>
              rw [get_of_soft pinned present live]
              rfl
          | none =>
              rw [get_of_missing pinned present live]
              rfl

/-- What a lookup finds: the value that the key shows, or that it shows one that takes a write to serve. -/
theorem lookup_tells (valid : tiers.Valid) (host : Host World Key Value) (world : World) (key : Key) :
    (lookup host key tiers world).1 = .needsWrite ∧ (tiers.value? (host.moment world) key).isSome = true ∨
      (lookup host key tiers world).1 = (tiers.value? (host.moment world) key).elim .miss .hit := by
  rw [lookup]
  cases pinned : tiers.pinned.slot? key with
  | some slot =>
      rw [value?_of_pinned valid pinned]
      cases slot with
      | some value => exact .inr rfl
      | none => exact .inr rfl
  | none =>
      rw [value?_of_unpinned pinned]
      cases present : tiers.primary.peek? key with
      | some value =>
          dsimp only
          split
          · exact .inl ⟨rfl, rfl⟩
          · exact .inr rfl
      | none =>
          rw [Option.none_or]
          dsimp only
          split
          next live => exact .inl ⟨rfl, live⟩
          next dead =>
            rw [SoftTier.contains, Bool.not_eq_true, Option.isSome_eq_false_iff, Option.isNone_iff_eq_none] at dead
            rw [dead]
            exact .inr rfl

theorem value?_of_hit (valid : tiers.Valid) {host : Host World Key Value} {world : World} {value : Value}
    (hit : (lookup host key tiers world).1 = .hit value) : tiers.value? (host.moment world) key = some value := by
  have told := lookup_tells valid host world key
  rw [hit] at told
  cases shown : tiers.value? (host.moment world) key with
  | none =>
      rw [shown] at told
      cases told with
      | inl needed => cases needed.1
      | inr same => cases same
  | some found =>
      rw [shown] at told
      cases told with
      | inl needed => cases needed.1
      | inr same => exact congrArg some (Lookup.hit.inj same).symm

theorem value?_of_miss (valid : tiers.Valid) {host : Host World Key Value} {world : World} :
    (lookup host key tiers world).1 = .miss ↔ tiers.value? (host.moment world) key = none := by
  have told := lookup_tells valid host world key
  cases shown : tiers.value? (host.moment world) key with
  | none =>
      rw [shown] at told
      cases told with
      | inl needed => cases needed.2
      | inr same => exact iff_of_true same rfl
  | some found =>
      rw [shown] at told
      cases told with
      | inl needed => rw [needed.1]; exact iff_of_false nofun nofun
      | inr same => rw [same]; exact iff_of_false nofun nofun

/-- The entries that can be seen, as every reader of tiers tells of them. -/
structure Shows [BEq Value] (tiers : Tiers Key Value) (moment : Moment) (shown : List (Entry Key Value)) : Prop where
  entries : tiers.entries moment = shown
  /-- First the pinned entries, then the primary ones, then the soft ones. -/
  order : shown.map Entry.tier =
    List.replicate (tiers.lengths moment).1 .pinned ++ List.replicate (tiers.lengths moment).2.1 .primary ++
      List.replicate (tiers.lengths moment).2.2 .soft
  distinct : (shown.map Entry.key).Nodup
  size : tiers.size moment = shown.length
  lengths : (tiers.lengths moment).1 + (tiers.lengths moment).2.1 + (tiers.lengths moment).2.2 = shown.length
  containsKey : ∀ key, tiers.containsKey moment key = true ↔ key ∈ shown.map Entry.key
  lookup : ∀ {World : Type} (host : Host World Key Value) (world : World), host.moment world = moment →
    ∀ key, ((tiers.lookup host key world).1 ≠ .miss ↔ key ∈ shown.map Entry.key) ∧
      ∀ value, (tiers.lookup host key world).1 = .hit value → (key, value) ∈ shown.map Entry.binding
  get : ∀ {World : Type} (host : Host World Key Value) (world : World),
    host.moment (host.record .getCall world) = moment →
      ∀ key, (tiers.get host key world).1 = Bindings.find? key (shown.map Entry.binding)
  containsValue : ∀ value, tiers.containsValue moment value = true ↔ ∃ entry ∈ shown, (entry.value == value) = true
  isPinned : ∀ key, tiers.isPinned key = true ↔ key ∈ tiers.pinnedKeys
  pinnedEmpty : ∀ key, tiers.pinned.slot? key = some none → key ∈ tiers.pinnedKeys ∧ key ∉ shown.map Entry.key

theorem tier_entries (tiers : Tiers Key Value) (moment : Moment) :
    (tiers.entries moment).map Entry.tier =
      List.replicate (tiers.lengths moment).1 .pinned ++ List.replicate (tiers.lengths moment).2.1 .primary ++
        List.replicate (tiers.lengths moment).2.2 .soft := by
  have primary : tiers.primary.size = tiers.primary.toList.length := KeyedQueue.size_eq _
  simp only [entries, lengths, primary, List.map_append, List.map_map, ← List.map_const']
  rfl

theorem length_entries (tiers : Tiers Key Value) (moment : Moment) :
    (tiers.entries moment).length = tiers.size moment := by
  have counted := congrArg List.length (tiers.tier_entries moment)
  rw [List.length_map, List.length_append, List.length_append, List.length_replicate, List.length_replicate,
    List.length_replicate] at counted
  exact counted

theorem Valid.shows [BEq Value] (valid : tiers.Valid) (moment : Moment) :
    tiers.Shows moment (tiers.entries moment) where
  entries := rfl
  order := tiers.tier_entries moment
  distinct := valid.distinct_entries moment
  size := (tiers.length_entries moment).symm
  lengths := (tiers.length_entries moment).symm
  containsKey _ := containsKey_iff
  lookup host world here key := by
    subst here
    constructor
    · rw [ne_eq, value?_of_miss valid, ← containsKey_iff, ← isSome_value?, Option.isSome_iff_ne_none]
    · intro value hit
      rw [← Bindings.find?_eq_some_iff, find?_entries]
      · exact value?_of_hit valid hit
      · rw [List.map_map]
        exact valid.distinct_entries (host.moment world)
  get host world here key := by
    rw [get_fst valid, here, find?_entries]
  containsValue _ := List.any_eq_true
  isPinned _ := Directory.contains_iff_mem_keys
  pinnedEmpty key empty := by
    constructor
    · refine Directory.contains_iff_mem_keys.mp (Option.isSome_iff_exists.mpr ⟨none, empty⟩)
    · rw [← containsKey_iff, ← isSome_value?, value?_of_pinned valid empty]
      exact nofun

end Tiers

end LayeredCache
