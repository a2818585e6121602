import LayeredCache.Proofs.Tiers.Departures
import LayeredCache.Proofs.Tiers.Operation

/-! Under the order of use, without a lifetime and without reclaims, the two bounded tiers are one plain cache that gives
up what was used longest ago. What the primary tier demotes is what the plain cache keeps in its older part. -/

set_option autoImplicit false

namespace LayeredCache

variable {Key Value : Type} [DecidableEq Key]

inductive Demand (Key Value : Type) where
  | put (key : Key) (value : Value)
  | get (key : Key)
  | remove (key : Key)
  | pin (key : Key)
  | unpin (key : Key)
  | clear
  | containsKey (key : Key)
  | setCacheSize (capacity : Nat)
  /-- Lets time pass, in nanoseconds. -/
  | wait (nanoseconds : Nat)

/-- A plain cache with pins and one list of entries, the one used longest ago first. -/
structure Lru (Key Value : Type) where
  pins : Key → Option (Option Value)
  recency : List (Key × Value)
  capacity : Nat

namespace Lru

def empty (capacity : Nat) : Lru Key Value := ⟨fun _ => none, [], capacity⟩

/-- What a cache has no room for, the oldest first, and the cache without it. -/
def trim (cache : Lru Key Value) : List (Key × Value) × Lru Key Value :=
  (cache.recency.rdrop cache.capacity,
    { cache with recency := cache.recency.rtake cache.capacity })

/-- Makes an entry the newest. -/
def enter (cache : Lru Key Value) (key : Key) (value : Value) : List (Key × Value) × Lru Key Value :=
  trim { cache with recency := Bindings.erase key cache.recency ++ [(key, value)] }

def unpinned (cache : Lru Key Value) (key : Key) : Lru Key Value :=
  { cache with pins := Function.update cache.pins key none }

/-- The answer to a demand with the entries that it drops, and the cache afterwards. -/
def respond (softReferenceSize : Nat) (demand : Demand Key Value) (cache : Lru Key Value) :
    (Answer Value × List (Key × Value)) × Lru Key Value :=
  match demand with
  | .put key value =>
      match cache.pins key with
      | some slot =>
          ((.value slot, []), { cache with pins := Function.update cache.pins key (some (some value)) })
      | none =>
          ((.value (Bindings.find? key cache.recency), (cache.enter key value).1),
            (cache.enter key value).2)
  | .get key =>
      match cache.pins key with
      | some slot => ((.value slot, []), cache)
      | none =>
          ((.value (Bindings.find? key cache.recency), []),
            { cache with recency := Bindings.moveToBack key cache.recency })
  | .remove key =>
      ((.value ((cache.pins key).join.or (Bindings.find? key cache.recency)), []),
        { cache.unpinned key with recency := Bindings.erase key cache.recency })
  | .pin key =>
      match cache.pins key with
      | some slot => ((.flag slot.isSome, []), cache)
      | none =>
          ((.flag (Bindings.find? key cache.recency).isSome, []),
            { cache with
              pins := Function.update cache.pins key (some (Bindings.find? key cache.recency))
              recency := Bindings.erase key cache.recency })
  | .unpin key =>
      match cache.pins key with
      | none => ((.flag false, []), cache)
      | some none => ((.flag true, []), cache.unpinned key)
      | some (some value) =>
          ((.flag true, ((cache.unpinned key).enter key value).1),
            ((cache.unpinned key).enter key value).2)
  | .clear => ((.done, []), { cache with pins := fun _ => none, recency := [] })
  | .containsKey key =>
      ((.flag ((cache.pins key).join.isSome || (Bindings.find? key cache.recency).isSome), []), cache)
  | .setCacheSize capacity =>
      let resized := trim { cache with capacity := capacity + softReferenceSize }
      ((.done, resized.1), resized.2)
  | .wait _ => ((.done, []), cache)

/-- The answers to demands in turn, each with the entries that it drops, and the cache afterwards. -/
def respondAll (softReferenceSize : Nat) :
    List (Demand Key Value) → Lru Key Value →
      List (Answer Value × List (Key × Value)) × Lru Key Value
  | [], cache => ([], cache)
  | demand :: rest, cache =>
      let (response, cache) := respond softReferenceSize demand cache
      let (responses, cache) := respondAll softReferenceSize rest cache
      (response :: responses, cache)

end Lru

namespace Tiers

/-- Carries out an operation and reports the entries that it drops. -/
def report (operation : Operation Key Value) (tiers : Tiers Key Value) (ledger : Ledger Key Value) :
    (Answer Value × List (Key × Value)) × Tiers Key Value × Ledger Key Value :=
  let outcome := operate .ledger operation tiers ledger.cleared
  ((outcome.1, outcome.2.2.dropped), outcome.2)

/-- The answer to a demand with the entries that it drops, and the tiers afterwards. -/
def respond (demand : Demand Key Value) (tiers : Tiers Key Value) (ledger : Ledger Key Value) :
    (Answer Value × List (Key × Value)) × Tiers Key Value × Ledger Key Value :=
  match demand with
  | .put key value => tiers.report (.put key value) ledger
  | .get key => tiers.report (.get key) ledger
  | .remove key => tiers.report (.remove key) ledger
  | .pin key => tiers.report (.pin key) ledger
  | .unpin key => tiers.report (.unpin key) ledger
  | .clear => tiers.report .clear ledger
  | .containsKey key => ((.flag (tiers.containsKey ledger.moment key), []), tiers, ledger)
  | .setCacheSize capacity => tiers.report (.setCacheSize capacity) ledger
  | .wait nanoseconds =>
      ((.done, []), tiers,
        { ledger with moment := ⟨ledger.moment.instant + nanoseconds, ledger.moment.epoch⟩ })

/-- The answers to demands in turn, each with the entries that it drops, and the tiers afterwards. -/
def respondAll :
    List (Demand Key Value) → Tiers Key Value → Ledger Key Value →
      List (Answer Value × List (Key × Value)) × Tiers Key Value × Ledger Key Value
  | [], tiers, ledger => ([], tiers, ledger)
  | demand :: rest, tiers, ledger =>
      let (response, tiers, ledger) := respond demand tiers ledger
      let (responses, tiers, ledger) := respondAll rest tiers ledger
      (response :: responses, tiers, ledger)

/-- Tiers that are one plain cache, as long as the epoch is what it is. -/
structure OneLine (softReferenceSize : Nat) (epoch : Epoch) (tiers : Tiers Key Value)
    (cache : Lru Key Value) : Prop where
  valid : tiers.Valid
  order : tiers.primary.order = .lru
  ttl : tiers.soft.ttl = none
  softRoom : tiers.soft.capacity = softReferenceSize
  epochs : ∀ entry ∈ tiers.soft.toList, entry.2.stamp.epoch = epoch
  capacity : cache.capacity = tiers.primary.capacity + softReferenceSize
  pins : ∀ key, tiers.pinned.slot? key = cache.pins key
  line : tiers.line = cache.recency

theorem Valid.length_line {tiers : Tiers Key Value} (valid : tiers.Valid) :
    tiers.line.length ≤ tiers.primary.capacity + tiers.soft.capacity := by
  rw [line, List.length_append, List.length_map]
  have primary := valid.primaryFits
  have soft := valid.softFits
  omega

theorem Settles.epochs {stamps : Moment → Prop} {entries : List (Key × Value)}
    {before after : Tiers Key Value} {epoch : Epoch} (settles : Settles stamps entries before after)
    (old : ∀ entry ∈ before.soft.toList, entry.2.stamp.epoch = epoch)
    (new : ∀ stamp, stamps stamp → stamp.epoch = epoch) :
    ∀ entry ∈ after.soft.toList, entry.2.stamp.epoch = epoch := by
  obtain ⟨demoted, -, stamped, stored⟩ := settles.soft
  intro entry member
  rw [stored] at member
  rcases List.mem_append.mp ((Line.rtake_sublist _ _).subset member) with kept | added
  · exact old entry kept
  · exact new entry.2.stamp (stamped entry added)

namespace OneLine

variable {softReferenceSize : Nat} {epoch : Epoch} {tiers : Tiers Key Value} {cache : Lru Key Value}
  {ledger : Ledger Key Value} {key : Key} {value : Value} {World : Type} {host : Host World Key Value} {world : World}

/-- Every entry of the soft tier is live. -/
theorem isLive (one : OneLine softReferenceSize epoch tiers cache) {moment : Moment}
    (same : moment.epoch = epoch) (entry : Key × Stamped Value) (stored : entry ∈ tiers.soft.toList) :
    entry.2.isLive tiers.soft.ttl moment = true := by
  simp only [Stamped.isLive, one.ttl, one.epochs entry stored, same, beq_self_eq_true, Bool.and_self]

theorem live (one : OneLine softReferenceSize epoch tiers cache) {moment : Moment}
    (same : moment.epoch = epoch) :
    tiers.soft.live moment = tiers.soft.toList.map Stamped.unstamped := by
  have all : tiers.soft.toList.filter (tiers.soft.isLive moment) = tiers.soft.toList :=
    List.filter_eq_self.mpr (one.isLive same)
  rw [SoftTier.live, all]
  rfl

theorem peek? (one : OneLine softReferenceSize epoch tiers cache) {moment : Moment}
    (same : moment.epoch = epoch) (key : Key) :
    tiers.soft.peek? moment key = Bindings.find? key (tiers.soft.toList.map Stamped.unstamped) := by
  rw [SoftTier.peek?_eq, Stamped.find?_unstamped]
  cases found : Bindings.find? key tiers.soft.toList with
  | none => rfl
  | some stored =>
      rw [Option.bind_some, if_pos (one.isLive same (key, stored) (Bindings.mem_of_find? found))]
      rfl

/-- The value of a key in the bounded tiers is its value in the line. -/
theorem find? (one : OneLine softReferenceSize epoch tiers cache) {moment : Moment}
    (same : moment.epoch = epoch) (key : Key) :
    (tiers.primary.peek? key).or (tiers.soft.peek? moment key) = Bindings.find? key cache.recency := by
  rw [← one.line, Tiers.line, Bindings.find?_append, one.peek? same, PrimaryTier.peek?_eq]
  cases found : Bindings.find? key tiers.primary.toList with
  | none => rw [Option.none_or, Option.or_none]
  | some value =>
      have absent : key ∉ (tiers.soft.toList.map Stamped.unstamped).map Prod.fst := by
        rw [keys_unstamped]
        exact one.valid.primarySoft key (List.mem_map_of_mem (Bindings.mem_of_find? found))
      rw [Bindings.find?_eq_none_iff.mpr absent, Option.none_or, Option.some_or]

theorem fits (one : OneLine softReferenceSize epoch tiers cache) :
    cache.recency.length ≤ cache.capacity := by
  rw [← one.line, one.capacity, ← one.softRoom]
  exact one.valid.length_line

theorem withoutSoft (one : OneLine softReferenceSize epoch tiers cache) (key : Key) :
    OneLine softReferenceSize epoch (tiers.withoutSoft key)
      { cache with recency := (tiers.withoutSoft key).line } where
  valid := one.valid.withoutSoft key
  order := one.order
  ttl := one.ttl
  softRoom := one.softRoom
  epochs entry member := by
    rw [toList_withoutSoft] at member
    exact one.epochs entry (Bindings.mem_erase.mp member).1
  capacity := one.capacity
  pins := one.pins
  line := rfl

theorem room (one : OneLine softReferenceSize epoch tiers cache) :
    cache.capacity = tiers.primary.capacity + tiers.soft.capacity := by
  rw [one.capacity, one.softRoom]

/-- A key that neither bounded tier has is nowhere in the line. -/
theorem erase_recency (one : OneLine softReferenceSize epoch tiers cache) (softAbsent : key ∉ tiers.softKeys)
    (absent : Bindings.find? key tiers.primary.toList = none) :
    Bindings.erase key cache.recency = cache.recency := by
  rw [← one.line, erase_line, Bindings.erase_eq_self softAbsent,
    Bindings.erase_eq_self (Bindings.find?_eq_none_iff.mp absent)]
  rfl

/-- A key of the primary tier that is given another value moves to the end of the line. -/
theorem moved (one : OneLine softReferenceSize epoch tiers cache) (softAbsent : key ∉ tiers.softKeys) (value : Value)
    {old : Value} (found : Bindings.find? key tiers.primary.toList = some old) :
    Bindings.erase key cache.recency ++ [(key, value)] =
        tiers.soft.toList.map Stamped.unstamped ++ (tiers.primary.insert key value).2.toList ∧
      (Bindings.erase key cache.recency ++ [(key, value)]).length ≤ cache.capacity := by
  obtain ⟨-, inserted⟩ := PrimaryTier.insert_present found value
  rw [one.order] at inserted
  have moved : Bindings.erase key cache.recency ++ [(key, value)] =
      tiers.soft.toList.map Stamped.unstamped ++ (tiers.primary.insert key value).2.toList := by
    rw [← one.line, erase_line, Bindings.erase_eq_self softAbsent, inserted, List.append_assoc]
    rfl
  refine ⟨moved, ?_⟩
  rw [moved, List.length_append, PrimaryTier.length_insert_present found, ← List.length_append, one.room]
  exact one.valid.length_line

/-- An entry that settles in the primary tier enters the line as its newest, before whatever host keeps the epoch. -/
theorem entered (one : OneLine softReferenceSize epoch tiers cache)
    (keeps : host.Keeps fun world => host.epoch world = epoch) (same : host.epoch world = epoch)
    (unpinned : tiers.pinned.slot? key = none) (softAbsent : key ∉ tiers.softKeys) (instant : Instant)
    (value : Value) :
    OneLine softReferenceSize epoch (Tiers.insertPrimary host instant key value tiers world).2.1
      (cache.enter key value).2 := by
  have valid := one.valid.insertPrimary unpinned softAbsent host instant value world
  cases found : Bindings.find? key tiers.primary.toList with
  | none =>
      have settles := one.valid.settles_insertPrimary keeps instant value world same found softAbsent
      exact {
        valid
        order := settles.order.trans one.order
        ttl := settles.ttl.trans one.ttl
        softRoom := settles.softReferenceSize.trans one.softRoom
        epochs := settles.epochs one.epochs fun stamp given => by
          obtain ⟨world, here, rfl⟩ := given
          exact here
        capacity := by rw [settles.cacheSize]; exact one.capacity
        pins := by rw [settles.pinned]; exact one.pins
        line := by
          rw [settles.line one.valid.softFits, Lru.enter, Lru.trim, one.erase_recency softAbsent found, ← one.line,
            one.room, Tiers.line, List.append_assoc] }
  | some old =>
      obtain ⟨moved, fits⟩ := one.moved softAbsent value found
      rw [insertPrimary_present found] at valid ⊢
      exact {
        valid
        order := (PrimaryTier.order_insert _ _ _).trans one.order
        ttl := one.ttl
        softRoom := one.softRoom
        epochs := one.epochs
        capacity := by rw [PrimaryTier.capacity_insert]; exact one.capacity
        pins := one.pins
        line := by
          rw [Lru.enter, Lru.trim, Line.rtake_of_fits fits, moved]
          rfl }

/-- Only a new key pushes the oldest of the whole line out. -/
theorem dropped_insertPrimary (one : OneLine softReferenceSize epoch tiers cache) (softAbsent : key ∉ tiers.softKeys)
    (ledger : Ledger Key Value) (instant : Instant) (value : Value) :
    (Tiers.insertPrimary .ledger instant key value tiers ledger).2.2.dropped =
      ledger.dropped ++ (cache.enter key value).1 := by
  cases found : Bindings.find? key tiers.primary.toList with
  | none =>
      rw [insertPrimary_dropped one.valid instant value ledger found softAbsent, Lru.enter, Lru.trim,
        one.erase_recency softAbsent found, ← one.line, one.room]
  | some old =>
      rw [insertPrimary_present found, Lru.enter, Lru.trim, Line.rdrop_of_fits (one.moved softAbsent value found).2,
        List.append_nil]

/-- An entry that settles in the primary tier enters the line as its newest, and what is pushed out is told. -/
theorem insertPrimary (one : OneLine softReferenceSize epoch tiers cache)
    (same : ledger.moment.epoch = epoch) (unpinned : tiers.pinned.slot? key = none)
    (softAbsent : key ∉ tiers.softKeys) (instant : Instant) (value : Value) :
    let outcome := insertPrimary .ledger instant key value tiers ledger
    outcome.2.2.dropped = ledger.dropped ++ (cache.enter key value).1 ∧
      OneLine softReferenceSize epoch outcome.2.1 (cache.enter key value).2 ∧
      outcome.2.2.moment = ledger.moment := by
  have still := (insertPrimary_simulates (Ledger.keeps_moment ledger.moment).simulates instant key value
    tiers ⟨rfl, rfl⟩).2.2.2
  exact ⟨one.dropped_insertPrimary softAbsent ledger instant value,
    one.entered (Ledger.keeps_epoch epoch) same unpinned softAbsent instant value, still⟩

theorem enter_withoutSoft (one : OneLine softReferenceSize epoch tiers cache) (key : Key)
    (value : Value) :
    Lru.enter { cache with recency := (tiers.withoutSoft key).line } key value = cache.enter key value := by
  rw [Lru.enter, Lru.enter, erase_line_withoutSoft, one.line]

theorem pins_pin (one : OneLine softReferenceSize epoch tiers cache) (key : Key)
    (slot : Option Value) (other : Key) :
    (tiers.pinned.pin key slot).slot? other = Function.update cache.pins key (some slot) other := by
  rw [PinnedTier.slot?_pin]
  split
  next same => rw [same, Function.update_self]
  next differs => rw [Function.update_of_ne differs, one.pins]

theorem pins_unpin (one : OneLine softReferenceSize epoch tiers cache) (key other : Key) :
    (tiers.pinned.unpin key).2.slot? other = Function.update cache.pins key none other := by
  rw [PinnedTier.slot?_unpin]
  split
  next same => rw [same, Function.update_self]
  next differs => rw [Function.update_of_ne differs, one.pins]

theorem unpinned (one : OneLine softReferenceSize epoch tiers cache) (key : Key) :
    OneLine softReferenceSize epoch { tiers with pinned := (tiers.pinned.unpin key).2 }
      (cache.unpinned key) where
  valid := one.valid.unpinned key
  order := one.order
  ttl := one.ttl
  softRoom := one.softRoom
  epochs := one.epochs
  capacity := one.capacity
  pins := one.pins_unpin key
  line := one.line

theorem touched (one : OneLine softReferenceSize epoch tiers cache)
    (present : tiers.primary.peek? key = some value)
    (valid : ({ tiers with primary := tiers.primary.touch key } : Tiers Key Value).Valid) :
    OneLine softReferenceSize epoch { tiers with primary := tiers.primary.touch key }
      { cache with recency := Bindings.moveToBack key cache.recency } := by
  have softAbsent := one.valid.softAbsent_of_peek present
  have found := one.find? (show (⟨0, epoch⟩ : Moment).epoch = epoch from rfl) key
  rw [present, Option.some_or] at found
  have used : (tiers.primary.touch key).toList =
      Bindings.erase key tiers.primary.toList ++ [(key, value)] := by
    rw [PrimaryTier.peek?_eq] at present
    rw [PrimaryTier.toList_touch, one.order, Bindings.moveToBack_of_present present]
    rfl
  exact { one with
    valid
    order := (PrimaryTier.order_touch _ _).trans one.order
    capacity := by rw [PrimaryTier.capacity_touch]; exact one.capacity
    line := by
      rw [Bindings.moveToBack_of_present found.symm, ← one.line, erase_line, Tiers.line, used,
        Bindings.erase_eq_self softAbsent, List.append_assoc] }

theorem removed (one : OneLine softReferenceSize epoch tiers cache) (key : Key)
    (valid : (⟨(tiers.pinned.unpin key).2, (tiers.primary.remove key).2,
      (tiers.withoutSoft key).soft⟩ : Tiers Key Value).Valid) :
    OneLine softReferenceSize epoch
      ⟨(tiers.pinned.unpin key).2, (tiers.primary.remove key).2, (tiers.withoutSoft key).soft⟩
      { cache.unpinned key with recency := Bindings.erase key cache.recency } where
  valid := valid
  order := one.order
  ttl := one.ttl
  softRoom := one.softRoom
  epochs := (one.withoutSoft key).epochs
  capacity := one.capacity
  pins := one.pins_unpin key
  line := by
    rw [← one.line, erase_line, Tiers.line, (tiers.primary.remove_eq key).2, toList_withoutSoft]

theorem pinned_of_primary (one : OneLine softReferenceSize epoch tiers cache)
    (present : tiers.primary.peek? key = some value)
    (valid : ({ tiers with
      primary := (tiers.primary.remove key).2, pinned := tiers.pinned.pin key (some value) } :
      Tiers Key Value).Valid) :
    OneLine softReferenceSize epoch
      { tiers with
        primary := (tiers.primary.remove key).2, pinned := tiers.pinned.pin key (some value) }
      { cache with
        pins := Function.update cache.pins key (some (some value))
        recency := Bindings.erase key cache.recency } :=
  { one with
    valid
    pins := one.pins_pin key (some value)
    line := by
      rw [← one.line, erase_line, Tiers.line, (tiers.primary.remove_eq key).2,
        Bindings.erase_eq_self (one.valid.softAbsent_of_peek present)] }

theorem pinned_of_absent (one : OneLine softReferenceSize epoch tiers cache)
    (absent : tiers.primary.peek? key = none) (slot : Option Value)
    (valid : ({ tiers.withoutSoft key with pinned := tiers.pinned.pin key slot } :
      Tiers Key Value).Valid) :
    OneLine softReferenceSize epoch { tiers.withoutSoft key with pinned := tiers.pinned.pin key slot }
      { cache with
        pins := Function.update cache.pins key (some slot)
        recency := Bindings.erase key cache.recency } :=
  { one.withoutSoft key with
    valid
    pins := one.pins_pin key slot
    line := by
      rw [PrimaryTier.peek?_eq, Bindings.find?_eq_none_iff] at absent
      rw [← one.line, erase_line, Bindings.erase_eq_self absent, ← toList_withoutSoft]
      rfl }

/-- A use of a present key makes its entry the newest and drops nothing. -/
theorem enter_of_present (one : OneLine softReferenceSize epoch tiers cache)
    (present : Bindings.find? key cache.recency = some value) :
    cache.enter key value = ([], { cache with recency := Bindings.moveToBack key cache.recency }) := by
  have moved := Bindings.moveToBack_of_present present
  have distinct : (cache.recency.map Prod.fst).Nodup := by
    rw [← one.line]
    exact one.valid.line_distinct
  have room : (Bindings.moveToBack key cache.recency).length ≤ cache.capacity := by
    rw [Bindings.length_moveToBack distinct]
    exact one.fits
  rw [Lru.enter, Lru.trim, ← moved, Line.rdrop_of_fits room, Line.rtake_of_fits room]

end OneLine

/-- Before whatever host, tiers answer what a plain cache answers, and they stay one with it. -/
def Serves {World : Type} (softReferenceSize : Nat) (epoch : Epoch) (tiered : Answer Value × Tiers Key Value × World)
    (single : (Answer Value × List (Key × Value)) × Lru Key Value) : Prop :=
  tiered.1 = single.1.1 ∧ OneLine softReferenceSize epoch tiered.2.1 single.2

namespace OneLine

variable {World : Type} {softReferenceSize : Nat} {epoch : Epoch} {tiers : Tiers Key Value} {cache : Lru Key Value}
  {host : Host World Key Value} {world : World}

theorem put (one : OneLine softReferenceSize epoch tiers cache)
    (keeps : host.Keeps fun world => host.epoch world = epoch) (same : host.epoch world = epoch) (key : Key)
    (value : Value) :
    Serves softReferenceSize epoch (operate host (.put key value) tiers world)
      (cache.respond softReferenceSize (.put key value)) := by
  have pins := one.pins key
  cases slot : tiers.pinned.slot? key with
  | some held =>
      rw [slot] at pins
      have valid := one.valid.put host key value world
      rw [put_of_pinned slot] at valid
      simp only [operate, put_of_pinned slot, Lru.respond, ← pins]
      exact ⟨rfl, { one with valid, pins := one.pins_pin key (some value) }⟩
  | none =>
      rw [slot] at pins
      have called := keeps.record .putCall same
      have settled := (one.withoutSoft key).entered keeps called slot (Valid.absent_withoutSoft tiers key)
        (host.clock (host.record .putCall world)) value
      have previous := insertPrimary_fst (one.valid.withoutSoft key).primaryFits host
        (host.clock (host.record .putCall world)) key value (host.record .putCall world)
      have found := one.find? (show (host.moment (host.record .putCall world)).epoch = epoch from called) key
      rw [one.enter_withoutSoft] at settled
      simp only [operate, put_of_unpinned slot, Lru.respond, ← pins]
      refine ⟨congrArg Answer.value ?_, settled⟩
      rw [← found]
      exact congrArg (Option.or · _) previous

theorem get (one : OneLine softReferenceSize epoch tiers cache)
    (keeps : host.Keeps fun world => host.epoch world = epoch) (same : host.epoch world = epoch) (key : Key) :
    Serves softReferenceSize epoch (operate host (.get key) tiers world)
      (cache.respond softReferenceSize (.get key)) := by
  have pins := one.pins key
  have called := keeps.record .getCall same
  have value := one.find? (show (host.moment (host.record .getCall world)).epoch = epoch from called) key
  cases slot : tiers.pinned.slot? key with
  | some held =>
      rw [slot] at pins
      simp only [operate, get_of_pinned slot, Lru.respond, ← pins]
      exact ⟨rfl, one⟩
  | none =>
      rw [slot] at pins
      cases present : tiers.primary.peek? key with
      | some found =>
          have valid := one.valid.get host key world
          rw [get_of_primary slot present] at valid
          rw [present, Option.some_or] at value
          simp only [operate, get_of_primary slot present, Lru.respond, ← pins, ← value]
          exact ⟨rfl, one.touched present valid⟩
      | none =>
          rw [present, Option.none_or] at value
          cases live : tiers.soft.peek? (host.moment (host.record .getCall world)) key with
          | some found =>
              rw [live] at value
              have settled := (one.withoutSoft key).entered keeps
                (keeps.record .softPromotion (keeps.record .getSoftHit called)) slot
                (Valid.absent_withoutSoft tiers key) (host.clock (host.record .getCall world)) found
              rw [one.enter_withoutSoft, one.enter_of_present value.symm] at settled
              simp only [operate, get_of_soft slot present live, Lru.respond, ← pins, ← value]
              exact ⟨rfl, settled⟩
          | none =>
              rw [live] at value
              have absent : key ∉ tiers.softKeys := by
                rw [one.peek? (show (host.moment (host.record .getCall world)).epoch = epoch from called),
                  Bindings.find?_eq_none_iff, keys_unstamped] at live
                exact live
              have unchanged : (tiers.withoutSoft key).line = cache.recency := by
                rw [← one.line, Tiers.line, toList_withoutSoft, Bindings.erase_eq_self absent]
                rfl
              have settled := one.withoutSoft key
              rw [unchanged] at settled
              simp only [operate, get_of_missing slot present live, Lru.respond, ← pins,
                Bindings.moveToBack_of_absent value.symm, ← value]
              exact ⟨rfl, settled⟩

theorem remove (one : OneLine softReferenceSize epoch tiers cache)
    (keeps : host.Keeps fun world => host.epoch world = epoch) (same : host.epoch world = epoch) (key : Key) :
    Serves softReferenceSize epoch (operate host (.remove key) tiers world)
      (cache.respond softReferenceSize (.remove key)) := by
  have valid := one.valid.remove host key world
  rw [remove_eq] at valid
  have removed : ((tiers.pinned.slot? key).join.or (tiers.primary.peek? key)).or
      (tiers.soft.peek? (host.moment (host.record .removeCall world)) key) =
        (cache.pins key).join.or (Bindings.find? key cache.recency) := by
    rw [← one.pins key, ← one.find? (show (host.moment (host.record .removeCall world)).epoch = epoch from
      keeps.record .removeCall same) key, Option.or_assoc]
  simp only [operate, remove_eq, Lru.respond, ← removed]
  exact ⟨rfl, one.removed key valid⟩

theorem clear (one : OneLine softReferenceSize epoch tiers cache) (host : Host World Key Value) (world : World) :
    Serves softReferenceSize epoch (operate host .clear tiers world) (cache.respond softReferenceSize .clear) := by
  refine ⟨rfl, ?_⟩
  exact { one with
    valid := one.valid.clear host world
    epochs := nofun
    pins := fun _ => rfl
    line := rfl }

theorem containsKey (one : OneLine softReferenceSize epoch tiers cache) {moment : Moment}
    (same : moment.epoch = epoch) (key : Key) :
    Answer.flag (tiers.containsKey moment key) = (cache.respond softReferenceSize (.containsKey key)).1.1 := by
  refine congrArg Answer.flag ?_
  rw [← one.pins key, ← one.find? same key, Option.isSome_or, ← Bool.or_assoc, Tiers.containsKey,
    PinnedTier.value?, SoftTier.contains, PrimaryTier.contains, PrimaryTier.peek?_eq, KeyedQueue.contains_eq]
  rfl

end OneLine

/-- A response of the tiers is that of the plain cache, and leaves them one. -/
def InStep (softReferenceSize : Nat) (epoch : Epoch)
    (tiered : (Answer Value × List (Key × Value)) × Tiers Key Value × Ledger Key Value)
    (single : (Answer Value × List (Key × Value)) × Lru Key Value) : Prop :=
  tiered.1 = single.1 ∧ OneLine softReferenceSize epoch tiered.2.1 single.2 ∧
    tiered.2.2.moment.epoch = epoch

section Steps

variable {softReferenceSize : Nat} {epoch : Epoch} {tiers : Tiers Key Value} {cache : Lru Key Value}
  {ledger : Ledger Key Value}

/-- A report in which the right entries are told of is in step. -/
theorem report_inStep {operation : Operation Key Value} {single : (Answer Value × List (Key × Value)) × Lru Key Value}
    (same : ledger.moment.epoch = epoch)
    (served : Serves softReferenceSize epoch (operate .ledger operation tiers ledger.cleared) single)
    (dropped : (operate .ledger operation tiers ledger.cleared).2.2.dropped = single.1.2) :
    InStep softReferenceSize epoch (tiers.report operation ledger) single := by
  have still := (operate_simulates (Ledger.keeps_moment ledger.moment).simulates operation tiers
    (show ledger.cleared = ledger.cleared ∧ ledger.cleared.moment = ledger.moment from ⟨rfl, rfl⟩)).2.2.2
  exact ⟨Prod.ext served.1 dropped, served.2, (congrArg Moment.epoch still).trans same⟩

theorem put_inStep (one : OneLine softReferenceSize epoch tiers cache)
    (same : ledger.moment.epoch = epoch) (key : Key) (value : Value) :
    InStep softReferenceSize epoch (tiers.respond (.put key value) ledger)
      (cache.respond softReferenceSize (.put key value)) := by
  have pins := one.pins key
  have cleared : Host.ledger.epoch ledger.cleared = epoch := same
  refine report_inStep same (one.put (Ledger.keeps_epoch epoch) cleared key value) ?_
  cases slot : tiers.pinned.slot? key with
  | some held =>
      rw [slot] at pins
      simp only [operate, put_of_pinned slot, Lru.respond, ← pins]
      rfl
  | none =>
      rw [slot] at pins
      have dropped := (one.withoutSoft key).dropped_insertPrimary (Valid.absent_withoutSoft tiers key)
        (Host.ledger.record .putCall ledger.cleared) ledger.moment.instant value
      rw [one.enter_withoutSoft] at dropped
      simp only [operate, put_of_unpinned slot, Lru.respond, ← pins]
      exact dropped

theorem get_inStep (one : OneLine softReferenceSize epoch tiers cache)
    (same : ledger.moment.epoch = epoch) (key : Key) :
    InStep softReferenceSize epoch (tiers.respond (.get key) ledger)
      (cache.respond softReferenceSize (.get key)) := by
  have pins := one.pins key
  have value := one.find? same key
  have cleared : Host.ledger.epoch ledger.cleared = epoch := same
  refine report_inStep same (one.get (Ledger.keeps_epoch epoch) cleared key) ?_
  cases slot : tiers.pinned.slot? key with
  | some held =>
      rw [slot] at pins
      simp only [operate, get_of_pinned slot, Lru.respond, ← pins]
      rfl
  | none =>
      rw [slot] at pins
      cases present : tiers.primary.peek? key with
      | some found =>
          simp only [operate, get_of_primary slot present, Lru.respond, ← pins]
          rfl
      | none =>
          rw [present, Option.none_or] at value
          cases live : tiers.soft.peek? ledger.moment key with
          | some found =>
              rw [live] at value
              have dropped := (one.withoutSoft key).dropped_insertPrimary (Valid.absent_withoutSoft tiers key)
                (Host.ledger.record .softPromotion (Host.ledger.record .getSoftHit
                  (Host.ledger.record .getCall ledger.cleared))) ledger.moment.instant found
              rw [one.enter_withoutSoft, one.enter_of_present value.symm] at dropped
              simp only [operate, @get_of_soft _ _ _ _ _ _ Host.ledger ledger.cleared found slot present live,
                Lru.respond, ← pins]
              exact dropped
          | none =>
              simp only [operate, @get_of_missing _ _ _ _ _ _ Host.ledger ledger.cleared slot present live,
                Lru.respond, ← pins]
              rfl

/-- A world that counts or not tells the same. -/
theorem counted_inStep {answer : Answer Value} {after : Tiers Key Value} (found : Bool)
    (recording : Metrics.Recording) (same : ledger.moment.epoch = epoch) (nothing : ledger.events = [])
    (settled : OneLine softReferenceSize epoch after cache) :
    let counted := if found then Host.ledger.record recording ledger else ledger
    InStep softReferenceSize epoch ((answer, counted.dropped), after, counted) ((answer, []), cache) := by
  have dropped : ledger.dropped = [] := by
    rw [Ledger.dropped, nothing, List.filterMap_nil]
  cases found with
  | false => exact ⟨Prod.ext rfl dropped, settled, same⟩
  | true => exact ⟨Prod.ext rfl dropped, settled, same⟩

theorem remove_inStep (one : OneLine softReferenceSize epoch tiers cache)
    (same : ledger.moment.epoch = epoch) (key : Key) :
    InStep softReferenceSize epoch (tiers.respond (.remove key) ledger)
      (cache.respond softReferenceSize (.remove key)) := by
  have cleared : Host.ledger.epoch ledger.cleared = epoch := same
  refine report_inStep same (one.remove (Ledger.keeps_epoch epoch) cleared key) ?_
  simp only [operate, remove_eq]
  split <;> rfl

theorem pin_inStep (one : OneLine softReferenceSize epoch tiers cache)
    (same : ledger.moment.epoch = epoch) (key : Key) :
    InStep softReferenceSize epoch (tiers.respond (.pin key) ledger)
      (cache.respond softReferenceSize (.pin key)) := by
  have pins := one.pins key
  have value := one.find? same key
  have valid := one.valid.pin .ledger key ledger.cleared
  cases slot : tiers.pinned.slot? key with
  | some held =>
      rw [slot] at pins
      simp only [respond, report, operate, pin_of_pinned slot, Lru.respond, ← pins]
      exact counted_inStep _ .pinFound same rfl one
  | none =>
      rw [slot] at pins
      cases present : tiers.primary.peek? key with
      | some found =>
          rw [present, Option.some_or] at value
          rw [pin_of_primary slot present] at valid
          simp only [respond, report, operate, pin_of_primary slot present, Lru.respond, ← pins, ← value]
          exact ⟨rfl, one.pinned_of_primary present valid, same⟩
      | none =>
          rw [present, Option.none_or] at value
          rw [pin_of_absent slot present] at valid
          simp only [respond, report, operate, pin_of_absent slot present, Lru.respond, ← pins, ← value]
          exact counted_inStep _ .pinFound same rfl (one.pinned_of_absent present _ valid)

theorem unpin_inStep (one : OneLine softReferenceSize epoch tiers cache)
    (same : ledger.moment.epoch = epoch) (key : Key) :
    InStep softReferenceSize epoch (tiers.respond (.unpin key) ledger)
      (cache.respond softReferenceSize (.unpin key)) := by
  have pins := one.pins key
  cases slot : tiers.pinned.slot? key with
  | none =>
      rw [slot] at pins
      simp only [respond, report, operate, unpin_of_unpinned slot, Lru.respond, ← pins]
      exact ⟨rfl, one, same⟩
  | some held =>
      rw [slot] at pins
      cases held with
      | none =>
          simp only [respond, report, operate, unpin_of_empty slot, Lru.respond, ← pins]
          exact ⟨rfl, one.unpinned key, same⟩
      | some value =>
          have released : (tiers.pinned.unpin key).2.slot? key = none := by
            rw [PinnedTier.slot?_unpin, if_pos rfl]
          obtain ⟨dropped, settled, still⟩ := (one.unpinned key).insertPrimary
            (show (Host.ledger.record .unpinCall ledger.cleared).moment.epoch = epoch from same) released
            (one.valid.softAbsent_of_pinned slot) ledger.moment.instant value
          simp only [respond, report, operate, unpin_of_valued slot, Lru.respond, ← pins]
          exact ⟨Prod.ext rfl dropped, settled, (congrArg Moment.epoch still).trans same⟩

theorem setCacheSize_inStep (one : OneLine softReferenceSize epoch tiers cache)
    (same : ledger.moment.epoch = epoch) (capacity : Nat) :
    InStep softReferenceSize epoch (tiers.respond (.setCacheSize capacity) ledger)
      (cache.respond softReferenceSize (.setCacheSize capacity)) := by
  have settles := one.valid.settles_setCacheSize (Ledger.keeps_moment ledger.moment) capacity
    ledger.cleared rfl
  have dropped := setCacheSize_dropped one.valid capacity ledger.cleared
  have still := (setCacheSize_simulates (Ledger.keeps_moment ledger.moment).simulates capacity tiers
    (show ledger.cleared = ledger.cleared ∧ ledger.moment = ledger.moment from ⟨rfl, rfl⟩)).2.2
  have valid := one.valid.setCacheSize .ledger capacity ledger.cleared
  rw [one.line, one.softRoom] at dropped
  refine ⟨Prod.ext rfl dropped, ?_, (congrArg Moment.epoch still).trans same⟩
  exact {
    valid
    order := settles.order.trans one.order
    ttl := settles.ttl.trans one.ttl
    softRoom := settles.softReferenceSize.trans one.softRoom
    epochs := settles.epochs one.epochs fun stamp given => by
      obtain ⟨world, here, rfl⟩ := given
      exact (congrArg Moment.epoch here).trans same
    capacity := (congrArg (· + softReferenceSize) settles.cacheSize).symm
    pins := fun key => (congrArg (PinnedTier.slot? · key) settles.pinned).trans (one.pins key)
    line := by
      have line := settles.line one.valid.softFits
      rw [show tiers.soft.toList.map Stamped.unstamped ++ tiers.primary.toList = cache.recency from one.line,
        one.softRoom] at line
      exact line }

theorem respond_inStep (one : OneLine softReferenceSize epoch tiers cache)
    (same : ledger.moment.epoch = epoch) (demand : Demand Key Value) :
    InStep softReferenceSize epoch (tiers.respond demand ledger)
      (cache.respond softReferenceSize demand) := by
  cases demand with
  | put key value => exact put_inStep one same key value
  | get key => exact get_inStep one same key
  | remove key => exact remove_inStep one same key
  | pin key => exact pin_inStep one same key
  | unpin key => exact unpin_inStep one same key
  | clear => exact report_inStep same (one.clear .ledger ledger.cleared) rfl
  | containsKey key => exact ⟨Prod.ext (one.containsKey same key) rfl, one, same⟩
  | setCacheSize capacity => exact setCacheSize_inStep one same capacity
  | wait nanoseconds => exact ⟨rfl, one, same⟩

theorem respondAll_inStep (one : OneLine softReferenceSize epoch tiers cache)
    (same : ledger.moment.epoch = epoch) (demands : List (Demand Key Value)) :
    (tiers.respondAll demands ledger).1 = (cache.respondAll softReferenceSize demands).1 ∧
      OneLine softReferenceSize epoch (tiers.respondAll demands ledger).2.1
        (cache.respondAll softReferenceSize demands).2 ∧
      (tiers.respondAll demands ledger).2.2.moment.epoch = epoch := by
  induction demands generalizing tiers cache ledger with
  | nil => exact ⟨rfl, one, same⟩
  | cons demand rest ih =>
      obtain ⟨response, settled, still⟩ := respond_inStep one same demand
      obtain ⟨responses, finished, epochAfter⟩ := ih settled still
      exact ⟨congrArg₂ List.cons response responses, finished, epochAfter⟩

end Steps

theorem oneLine_empty (cacheSize softReferenceSize : Nat) (epoch : Epoch) :
    OneLine softReferenceSize epoch
      (.empty .lru cacheSize softReferenceSize none : Tiers Key Value)
      (.empty (cacheSize + softReferenceSize)) where
  valid := .empty .lru cacheSize softReferenceSize none
  order := rfl
  ttl := rfl
  softRoom := rfl
  epochs := nofun
  capacity := rfl
  pins _ := rfl
  line := rfl

/-- Whatever is demanded, tiers under the order of use answer what one plain cache of their summed capacity answers, drop
what it drops, and hold what it holds in the same order; all of it is visible. -/
theorem bounded_tiers_are_one_lru (cacheSize softReferenceSize : Nat) (moment : Moment)
    (demands : List (Demand Key Value)) :
    let tiered := (Tiers.empty .lru cacheSize softReferenceSize none).respondAll demands (.start moment)
    let single := (Lru.empty (cacheSize + softReferenceSize)).respondAll softReferenceSize demands
    tiered.1 = single.1 ∧ tiered.2.1.line = single.2.recency ∧
      tiered.2.1.soft.live tiered.2.2.moment ++ tiered.2.1.primary.toList = single.2.recency ∧
      ∀ key, tiered.2.1.pinned.slot? key = single.2.pins key := by
  obtain ⟨responses, one, same⟩ := @respondAll_inStep Key Value _ softReferenceSize moment.epoch _ _
    (.start moment) (oneLine_empty cacheSize softReferenceSize moment.epoch) rfl demands
  refine ⟨responses, one.line, ?_, one.pins⟩
  rw [one.live same]
  exact one.line

end Tiers

end LayeredCache
