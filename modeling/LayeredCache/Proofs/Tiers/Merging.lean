import LayeredCache.Proofs.Tiers.Copies
import Mathlib.Data.Finset.Card

/-! Copying entries of which all fit. What counts is the room of both bounded tiers together: an entry that the primary
tier has no room for finds its place in the soft tier, and nothing is dropped. Then the tiers show either side of the copy
merged. -/

set_option autoImplicit false

namespace LayeredCache

variable {World Key Value : Type} [DecidableEq Key]

namespace Tiers

variable {host : Host World Key Value} {holds : World → Prop} {log : World → List (Event Key Value)}
  {entry : Entry Key Value} {entries rest : List (Entry Key Value)} {events : List (Event Key Value)}
  {tiers before after : Tiers Key Value} {replaceExisting : Bool} {key : Key} {moment : Moment} {world : World}

/-! ### Room -/

/-- The keys that the bounded tiers store, live or not. -/
def boundedKeys (tiers : Tiers Key Value) : Finset Key := (tiers.primaryKeys ++ tiers.softKeys).toFinset

/-- The keys of the entries that no pin keeps out of the bounded tiers. -/
def unpinnedKeys (entries : List (Entry Key Value)) : Finset Key :=
  ((entries.filter fun entry => entry.tier ≠ .pinned).map Entry.key).toFinset

theorem unpinnedKeys_of_pinned (pinned : entry.tier = .pinned) (rest : List (Entry Key Value)) :
    unpinnedKeys (entry :: rest) = unpinnedKeys rest := by
  rw [unpinnedKeys, List.filter_cons_of_neg (by simpa using pinned), unpinnedKeys]

theorem unpinnedKeys_of_unpinned (unpinned : entry.tier ≠ .pinned) (rest : List (Entry Key Value)) :
    unpinnedKeys (entry :: rest) = insert entry.key (unpinnedKeys rest) := by
  rw [unpinnedKeys, List.filter_cons_of_pos (by simpa using unpinned), List.map_cons, List.toFinset_cons, unpinnedKeys]

theorem mem_boundedKeys : key ∈ tiers.boundedKeys ↔ key ∈ tiers.line.map Prod.fst := by
  rw [boundedKeys, List.mem_toFinset, mem_line_keys]

theorem Valid.card_boundedKeys (valid : tiers.Valid) : tiers.boundedKeys.card = tiers.line.length := by
  have same : tiers.boundedKeys = (tiers.line.map Prod.fst).toFinset := by
    ext key
    rw [mem_boundedKeys, List.mem_toFinset]
  rw [same, List.toFinset_card_of_nodup valid.line_distinct, List.length_map]

theorem Valid.unpinned_of_bounded (valid : tiers.Valid) (bounded : key ∈ tiers.boundedKeys) :
    tiers.pinned.slot? key = none := by
  rw [boundedKeys, List.mem_toFinset] at bounded
  rcases List.mem_append.mp bounded with primary | soft
  · exact valid.primaryUnpinned key primary
  · exact valid.softUnpinned key soft

/-- An operation on a key brings no other key into the bounded tiers. -/
theorem Accounted.boundedKeys (accounted : Accounted (some key) events before after) :
    after.boundedKeys ⊆ insert key before.boundedKeys := by
  obtain ⟨lost, -, line⟩ := accounted.line
  intro other bounded
  by_cases same : other = key
  · rw [same]
    exact Finset.mem_insert_self key _
  · obtain ⟨stored, listed, rfl⟩ := List.mem_map.mp (mem_boundedKeys.mp bounded)
    have left : stored ∈ others (some key) (lost ++ after.line) :=
      mem_others.mpr ⟨List.mem_append_right _ listed, fun own => same (Option.some.inj own).symm⟩
    rw [line] at left
    exact Finset.mem_insert_of_mem (mem_boundedKeys.mpr (List.mem_map_of_mem (mem_others.mp left).1))

theorem isLive_at_once {ttl : Option Span} (lasting : ∀ lifetime ∈ ttl, 0 < lifetime.nanoseconds) (fresh : Value) :
    Stamped.isLive ttl moment ⟨fresh, moment⟩ = true := by
  refine Stamped.isLive_iff.mpr ⟨rfl, ?_⟩
  intro lifetime given
  rw [Nat.sub_self]
  exact lasting lifetime given

/-- Where there is room for one key more, if the bounded tiers do not store it yet, a value put for it is welcome. -/
theorem Valid.welcomes_of_fits (valid : tiers.Valid) (lasting : ∀ lifetime ∈ tiers.soft.ttl, 0 < lifetime.nanoseconds)
    (fits : (insert key tiers.boundedKeys).card ≤ tiers.cacheSize + tiers.softReferenceSize) :
    tiers.Welcomes moment key := by
  intro _ absent
  refine ⟨?_, isLive_at_once lasting⟩
  have missing : key ∉ (tiers.withoutSoft key).boundedKeys := by
    rw [boundedKeys, List.mem_toFinset, List.mem_append, not_or]
    refine ⟨?_, absent_withoutSoft tiers key⟩
    rw [PrimaryTier.peek?_eq] at absent
    exact Bindings.find?_eq_none_iff.mp absent
  have fewer : (tiers.withoutSoft key).boundedKeys ⊆ tiers.boundedKeys := by
    intro other bounded
    rw [boundedKeys, List.mem_toFinset, List.mem_append, softKeys, toList_withoutSoft] at bounded
    rw [boundedKeys, List.mem_toFinset, List.mem_append]
    exact bounded.imp_right fun soft => (Bindings.mem_keys_erase.mp soft).1
  calc (tiers.withoutSoft key).line.length
      = (tiers.withoutSoft key).boundedKeys.card := (valid.withoutSoft key).card_boundedKeys.symm
    _ < (insert key (tiers.withoutSoft key).boundedKeys).card := by
        rw [Finset.card_insert_of_notMem missing]
        exact Nat.lt_succ_self _
    _ ≤ (insert key tiers.boundedKeys).card := Finset.card_le_card (Finset.insert_subset_insert key fewer)
    _ ≤ _ := fits

/-! ### Bounds -/

/-- Tiers have kept their capacities and their lifetime. -/
structure SameBounds (before after : Tiers Key Value) : Prop where
  cacheSize : after.cacheSize = before.cacheSize
  softReferenceSize : after.softReferenceSize = before.softReferenceSize
  ttl : after.soft.ttl = before.soft.ttl

theorem SameBounds.trans {between : Tiers Key Value} (first : SameBounds before between)
    (second : SameBounds between after) : SameBounds before after :=
  ⟨second.cacheSize.trans first.cacheSize, second.softReferenceSize.trans first.softReferenceSize,
    second.ttl.trans first.ttl⟩

theorem sameBounds_insertPrimary (host : Host World Key Value) (instant : Instant) (key : Key) (value : Value)
    (tiers : Tiers Key Value) (world : World) :
    SameBounds tiers (insertPrimary host instant key value tiers world).2.1 := by
  rw [insertPrimary]
  dsimp only
  split
  next => exact ⟨PrimaryTier.capacity_insert _ _ _, rfl, rfl⟩
  next ejected _ =>
    have differ := demote_differ host instant ejected { tiers with primary := (tiers.primary.insert key value).2 } world
    exact ⟨(congrArg PrimaryTier.capacity differ.primary).trans (PrimaryTier.capacity_insert _ _ _), differ.capacity,
      differ.ttl⟩

theorem sameBounds_put (host : Host World Key Value) (key : Key) (value : Value) (tiers : Tiers Key Value)
    (world : World) : SameBounds tiers (put host key value tiers world).2.1 := by
  cases slot : tiers.pinned.slot? key with
  | some held =>
      rw [put_of_pinned slot]
      exact ⟨rfl, rfl, rfl⟩
  | none =>
      rw [put_of_unpinned slot]
      have inserted := sameBounds_insertPrimary host (host.clock (host.record .putCall world)) key value
        (tiers.withoutSoft key) (host.record .putCall world)
      exact ⟨inserted.cacheSize, inserted.softReferenceSize, inserted.ttl⟩

theorem sameBounds_prepare (host : Host World Key Value) (entry : Entry Key Value) (tiers : Tiers Key Value)
    (world : World) : SameBounds tiers (prepare host entry tiers world).1 := by
  rw [prepare]
  split
  · cases slot : tiers.pinned.slot? entry.key with
    | some held =>
        rw [pin_of_pinned slot]
        exact ⟨rfl, rfl, rfl⟩
    | none =>
        cases present : tiers.primary.peek? entry.key with
        | some value =>
            rw [pin_of_primary slot present]
            exact ⟨rfl, rfl, rfl⟩
        | none =>
            rw [pin_of_absent slot present]
            exact ⟨rfl, rfl, rfl⟩
  · exact ⟨rfl, rfl, rfl⟩

theorem sameBounds_putEntry (here : host.moment world = moment) (replaceExisting : Bool) (entry : Entry Key Value)
    (tiers : Tiers Key Value) : SameBounds tiers (putEntry host replaceExisting entry tiers world).1 := by
  cases passed : tiers.passesOver replaceExisting moment entry with
  | true =>
      rw [putEntry_of_passed here passed]
      exact ⟨rfl, rfl, rfl⟩
  | false =>
      rw [putEntry_of_copied here passed]
      exact (sameBounds_prepare host entry tiers world).trans (sameBounds_put host entry.key entry.value _ _)

theorem sameBounds_putAll (host : Host World Key Value) (replaceExisting : Bool) (entries : List (Entry Key Value))
    (tiers : Tiers Key Value) (world : World) : SameBounds tiers (putAll host replaceExisting entries tiers world).1 := by
  induction entries generalizing tiers world with
  | nil => exact ⟨rfl, rfl, rfl⟩
  | cons entry rest ih => exact (sameBounds_putEntry rfl replaceExisting entry tiers).trans (ih _ _)

/-! ### One entry -/

/-- What a key shows once entries are copied of which all fit, given what it showed before. -/
def merged (replaceExisting : Bool) (entries : List (Entry Key Value)) (shown : Option Value) (key : Key) :
    Option Value :=
  let given := Bindings.find? key (entries.map Entry.binding)
  if replaceExisting then given.or shown else shown.or given

/-- What copying entries makes of tiers, if all of them fit. -/
structure Merges (log : World → List (Event Key Value)) (replaceExisting : Bool) (moment : Moment)
    (entries : List (Entry Key Value)) (before after : Tiers Key Value × World) : Prop where
  value? : ∀ key, after.1.value? moment key = merged replaceExisting entries (before.1.value? moment key) key
  isPinned : ∀ key, after.1.isPinned key = true ↔ before.1.isPinned key = true ∨
    ∃ entry ∈ entries, entry.key = key ∧ entry.tier = .pinned ∧
      before.1.passesOver replaceExisting moment entry = false
  told : TellsDemotions log before.2 after.2

theorem isPinned_prepare (host : Host World Key Value) (entry : Entry Key Value) (tiers : Tiers Key Value)
    (world : World) (key : Key) :
    (prepare host entry tiers world).1.isPinned key = true ↔
      tiers.isPinned key = true ∨ entry.key = key ∧ entry.tier = .pinned := by
  rw [prepare]
  split
  next pinned =>
    have repinned : (pin host entry.key tiers world).2.1.isPinned key = true ↔ _ :=
      (repinned_pin host entry.key tiers world).isPinned_iff
    simpa [Operation.pins, Operation.unpins, pinned, or_comm, isPinned] using repinned
  next unpinned => simp [unpinned]

theorem isPinned_put (host : Host World Key Value) (key : Key) (value : Value) (tiers : Tiers Key Value)
    (world : World) (other : Key) :
    (put host key value tiers world).2.1.isPinned other = true ↔ tiers.isPinned other = true := by
  have repinned : (put host key value tiers world).2.1.isPinned other = true ↔ _ :=
    (repinned_put host key value tiers world).isPinned_iff
  simpa [Operation.pins, Operation.unpins, isPinned] using repinned

theorem merged_singleton (replaceExisting : Bool) (entry : Entry Key Value) (shown : Option Value) (key : Key) :
    merged replaceExisting [entry] shown key =
      if key = entry.key then if replaceExisting then some entry.value else shown.or (some entry.value) else shown := by
  have given : Bindings.find? key ([entry].map Entry.binding) = if entry.key = key then some entry.value else none := rfl
  rw [merged, given]
  by_cases own : key = entry.key
  · rw [if_pos own.symm, if_pos own, Option.some_or]
  · rw [if_neg (Ne.symm own), if_neg own, Option.none_or, Option.or_none, ite_self]

/-- An entry that fits is merged with what its key showed. -/
theorem merges_putEntry (logs : host.Logs holds log) (held : holds world)
    (stands : ∀ {world}, holds world → host.moment world = moment) (valid : tiers.Valid)
    (lasting : ∀ lifetime ∈ tiers.soft.ttl, 0 < lifetime.nanoseconds) (replaceExisting : Bool)
    (fits : entry.tier ≠ .pinned →
      (insert entry.key tiers.boundedKeys).card ≤ tiers.cacheSize + tiers.softReferenceSize) :
    Merges log replaceExisting moment [entry] (tiers, world) (putEntry host replaceExisting entry tiers world) := by
  cases passed : tiers.passesOver replaceExisting moment entry with
  | true =>
      rw [putEntry_of_passed (stands held) passed]
      obtain ⟨keeping, shown⟩ := Bool.and_eq_true_iff.mp passed
      constructor
      · intro key
        obtain rfl : replaceExisting = false := by simpa using keeping
        rw [merged_singleton]
        split
        next own => rw [own, if_neg Bool.false_ne_true, Option.or_of_isSome shown]
        next => rfl
      · intro key
        simp [passed]
      · exact .silent rfl
  | false =>
      have kept := prepare_keeps logs.keeps held entry tiers
      have validPrepared := valid.prepare host entry world
      have welcome : (prepare host entry tiers world).1.Welcomes moment entry.key := by
        by_cases pinned : entry.tier = .pinned
        · intro unpinned
          have registered := (isPinned_prepare host entry tiers world entry.key).mpr (.inr ⟨rfl, pinned⟩)
          exact absurd unpinned (PinnedTier.isPinned_iff.mp registered)
        · rw [prepare, if_neg pinned]
          exact valid.welcomes_of_fits lasting (fits pinned)
      rw [putEntry_of_copied (stands held) passed]
      constructor
      · intro key
        dsimp only
        rw [value?_put_of_welcome logs kept stands validPrepared welcome, value?_prepare logs.keeps held stands,
          merged_singleton]
        split
        next own =>
          rw [passesOver, ← own] at passed
          cases replaceExisting with
          | true => rfl
          | false =>
              have missing : tiers.value? moment key = none := by simpa using passed
              rw [missing]
              rfl
        next => rfl
      · intro key
        dsimp only
        rw [isPinned_put, isPinned_prepare]
        simp [passed]
      · exact (TellsDemotions.silent (prepare_log logs held entry tiers)).trans
          (put_spares_of_welcome logs kept validPrepared welcome entry.value).told

/-! ### All entries -/

theorem merged_cons (replaceExisting : Bool) (apart : entry.key ∉ rest.map Entry.key) (shown : Option Value)
    (key : Key) :
    merged replaceExisting (entry :: rest) shown key =
      merged replaceExisting rest (merged replaceExisting [entry] shown key) key := by
  by_cases own : key = entry.key
  · have absent : Bindings.find? key (rest.map Entry.binding) = none := by
      rw [Bindings.find?_eq_none_iff, List.map_map, own]
      exact apart
    have given : Bindings.find? key ((entry :: rest).map Entry.binding) = some entry.value := if_pos own.symm
    rw [merged_singleton, if_pos own, merged, merged, given, absent, Option.none_or, Option.or_none, ite_self,
      Option.some_or]
  · have given : Bindings.find? key ((entry :: rest).map Entry.binding) = Bindings.find? key (rest.map Entry.binding) :=
      if_neg (Ne.symm own)
    rw [merged_singleton, if_neg own, merged, merged, given]

theorem Merges.cons {first second third : Tiers Key Value × World}
    (start : Merges log replaceExisting moment [entry] first second)
    (later : Merges log replaceExisting moment rest second third) (apart : entry.key ∉ rest.map Entry.key) :
    Merges log replaceExisting moment (entry :: rest) first third where
  value? key := by rw [later.value?, start.value?, ← merged_cons replaceExisting apart]
  isPinned key := by
    -- what is passed over later is what would have been at once
    have passed : ∀ other ∈ rest, second.1.passesOver replaceExisting moment other =
        first.1.passesOver replaceExisting moment other := by
      intro other listed
      have differs : other.key ≠ entry.key := fun same => apart (same ▸ List.mem_map_of_mem listed)
      rw [passesOver, start.value?, merged_singleton, if_neg differs, passesOver]
    have remaining : (∃ other ∈ rest, other.key = key ∧ other.tier = .pinned ∧
          second.1.passesOver replaceExisting moment other = false) ↔
        ∃ other ∈ rest, other.key = key ∧ other.tier = .pinned ∧
          first.1.passesOver replaceExisting moment other = false :=
      exists_congr fun other => and_congr_right fun listed => by rw [passed other listed]
    rw [later.isPinned, start.isPinned, remaining, or_assoc]
    simp
  told := start.told.trans later.told

theorem mem_unpinnedKeys_cons {other : Key} :
    other ∈ unpinnedKeys (entry :: rest) ↔ entry.tier ≠ .pinned ∧ other = entry.key ∨ other ∈ unpinnedKeys rest := by
  by_cases pinned : entry.tier = .pinned
  · rw [unpinnedKeys_of_pinned pinned]
    simp [pinned]
  · rw [unpinnedKeys_of_unpinned pinned, Finset.mem_insert]
    simp [pinned]

/-- A copy takes up no more room than was set aside for its entry. -/
theorem putEntry_fits (logs : host.Logs holds log) (held : holds world)
    (stands : ∀ {world}, holds world → host.moment world = moment) (valid : tiers.Valid) (replaceExisting : Bool)
    (entry : Entry Key Value) (rest : List (Entry Key Value)) :
    (putEntry host replaceExisting entry tiers world).1.boundedKeys ∪ unpinnedKeys rest ⊆
      tiers.boundedKeys ∪ unpinnedKeys (entry :: rest) := by
  have setAside : unpinnedKeys rest ⊆ unpinnedKeys (entry :: rest) :=
    fun other member => mem_unpinnedKeys_cons.mpr (.inr member)
  cases passed : tiers.passesOver replaceExisting moment entry with
  | true =>
      rw [putEntry_of_passed (stands held) passed]
      exact Finset.union_subset_union_right setAside
  | false =>
      have kept := prepare_keeps logs.keeps held entry tiers
      have validPrepared := valid.prepare host entry world
      obtain ⟨_, -, written⟩ := put_accounts logs kept validPrepared entry.key entry.value
      have validAfter := validPrepared.put host entry.key entry.value (prepare host entry tiers world).2
      have prepared : (prepare host entry tiers world).1.boundedKeys ⊆ insert entry.key tiers.boundedKeys := by
        rw [prepare]
        split
        · obtain ⟨_, -, pinned⟩ := pin_accounts logs held tiers entry.key
          exact pinned.boundedKeys
        · exact Finset.subset_insert _ _
      rw [putEntry_of_copied (stands held) passed]
      intro other member
      rw [Finset.mem_union, mem_unpinnedKeys_cons]
      rcases Finset.mem_union.mp member with bounded | later
      · have grown : other ∈ insert entry.key tiers.boundedKeys := by
          rcases Finset.mem_insert.mp (written.boundedKeys bounded) with rfl | before
          · exact Finset.mem_insert_self _ _
          · exact prepared before
        rcases Finset.mem_insert.mp grown with rfl | old
        · refine .inr (.inl ⟨fun pinned => ?_, rfl⟩)
          -- a key that was pinned for its entry is in no bounded tier any more
          have registered := (isPinned_prepare host entry tiers world entry.key).mpr (.inr ⟨rfl, pinned⟩)
          rw [← isPinned_put host entry.key entry.value _ (prepare host entry tiers world).2] at registered
          exact PinnedTier.isPinned_iff.mp registered (validAfter.unpinned_of_bounded bounded)
        · exact .inl old
      · exact .inr (.inr later)

theorem merges_putAll (logs : host.Logs holds log) (held : holds world)
    (stands : ∀ {world}, holds world → host.moment world = moment) (valid : tiers.Valid)
    (lasting : ∀ lifetime ∈ tiers.soft.ttl, 0 < lifetime.nanoseconds) (replaceExisting : Bool)
    (distinct : (entries.map Entry.key).Nodup)
    (fits : (tiers.boundedKeys ∪ unpinnedKeys entries).card ≤ tiers.cacheSize + tiers.softReferenceSize) :
    Merges log replaceExisting moment entries (tiers, world) (putAll host replaceExisting entries tiers world) := by
  induction entries generalizing tiers world with
  | nil =>
      constructor
      · intro key
        rw [merged]
        exact (ite_self _).symm.trans (if_congr Iff.rfl Option.none_or.symm Option.or_none.symm)
      · intro key
        simp [putAll]
      · exact .silent rfl
  | cons entry rest ih =>
      obtain ⟨apart, others⟩ := List.nodup_cons.mp distinct
      have bounds := sameBounds_putEntry (stands held) replaceExisting entry tiers
      have room := Finset.card_le_card (putEntry_fits logs held stands valid replaceExisting entry rest)
      have ownRoom : entry.tier ≠ .pinned →
          (insert entry.key tiers.boundedKeys).card ≤ tiers.cacheSize + tiers.softReferenceSize := by
        intro unpinned
        refine (Finset.card_le_card ?_).trans fits
        rw [Finset.insert_subset_iff, Finset.mem_union, mem_unpinnedKeys_cons]
        exact ⟨.inr (.inl ⟨unpinned, rfl⟩), Finset.subset_union_left⟩
      have lastingAfter : ∀ lifetime ∈ (putEntry host replaceExisting entry tiers world).1.soft.ttl,
          0 < lifetime.nanoseconds := by
        rw [bounds.ttl]
        exact lasting
      rw [← bounds.cacheSize, ← bounds.softReferenceSize] at fits
      exact (merges_putEntry logs held stands valid lasting replaceExisting ownRoom).cons
        (ih (putEntry_keeps logs.keeps held replaceExisting entry tiers)
          (valid.putEntry host replaceExisting entry world) lastingAfter others (room.trans fits)) apart

/-- What copying entries makes of tiers, if all of them fit. A key that is pinned has its share of it in the pinned tier. -/
structure MergesWithPins (log : World → List (Event Key Value)) (replaceExisting : Bool) (moment : Moment)
    (entries : List (Entry Key Value)) (before after : Tiers Key Value × World) : Prop
    extends Merges log replaceExisting moment entries before after where
  slot? : ∀ key, after.1.isPinned key = true →
    after.1.pinned.slot? key = some (merged replaceExisting entries (before.1.value? moment key) key)

/-- Where the bounded tiers have room in all for every key that they store or are brought, copying entries merges them with
what the tiers show, and drops nothing. -/
theorem copying_merges_what_fits (reachable : tiers.Reachable) (logs : host.Logs holds log) (held : holds world)
    (stands : ∀ {world}, holds world → host.moment world = moment)
    (lasting : ∀ lifetime ∈ tiers.soft.ttl, 0 < lifetime.nanoseconds) (replaceExisting : Bool)
    (distinct : (entries.map Entry.key).Nodup)
    (fits : (tiers.boundedKeys ∪ unpinnedKeys entries).card ≤ tiers.cacheSize + tiers.softReferenceSize) :
    MergesWithPins log replaceExisting moment entries (tiers, world)
      (putAll host replaceExisting entries tiers world) := by
  have merges := merges_putAll logs held stands reachable.valid lasting replaceExisting distinct fits
  refine ⟨merges, fun key pinned => ?_⟩
  obtain ⟨slot, registered⟩ := Option.ne_none_iff_exists'.mp (PinnedTier.isPinned_iff.mp pinned)
  have shown := value?_of_pinned (reachable.valid.putAll host replaceExisting entries world) registered moment
  rw [registered, ← merges.value? key, shown]

/-- Tiers with room for four keys, of which they store three, one of them in the primary tier, take in a fourth, along with
a value for a pin without one and a new pin. -/
theorem last_place_is_taken :
    let moment : Moment := ⟨0, 0⟩
    let ledger : Ledger Nat Nat := .start moment
    let asked : List (Operation Nat Nat) := [.pin 5, .put 1 10, .put 2 20, .put 3 30]
    let tiers := asked.foldl (fun tiers operation => (operate .ledger operation tiers ledger).2.1)
      (.empty .lru 1 3 (some (.ofMilliseconds 1)))
    let entries : List (Entry Nat Nat) := [⟨6, 60, .pinned⟩, ⟨5, 50, .pinned⟩, ⟨1, 11, .primary⟩, ⟨4, 40, .soft⟩]
    let after := putAll .ledger false entries tiers ledger
    (tiers.boundedKeys ∪ unpinnedKeys entries).card = 4 ∧ after.2.events = [.primaryOverflow 3 30 true] ∧
      MergesWithPins Ledger.events false moment entries (tiers, ledger) after := by
  intro moment ledger asked tiers entries after
  have reachable : tiers.Reachable := (Reachable.fresh .lru 1 3 (some (.ofMilliseconds 1))).foldl .ledger ledger asked
  have count : (tiers.boundedKeys ∪ unpinnedKeys entries).card = 4 := by decide +kernel
  have fits : (tiers.boundedKeys ∪ unpinnedKeys entries).card ≤ tiers.cacheSize + tiers.softReferenceSize := by
    decide +kernel
  have told : after.2.events = [.primaryOverflow 3 30 true] := by decide +kernel
  have lasting : ∀ lifetime ∈ tiers.soft.ttl, 0 < lifetime.nanoseconds := by decide +kernel
  exact ⟨count, told, copying_merges_what_fits reachable (Ledger.logs moment) (rfl : ledger.moment = moment)
    (fun still => still) lasting false (by decide) fits⟩

end Tiers

end LayeredCache
