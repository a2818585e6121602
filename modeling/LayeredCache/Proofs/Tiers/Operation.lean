import LayeredCache.Proofs.Tiers.Valid

/-! The operations on tiers as data, and the tiers that they lead to. One operation may meet another world and another
host than the next, so that whatever happens between operations, or inside them when the host records or notifies, is
covered. -/

set_option autoImplicit false

namespace LayeredCache

variable {World Other Key Value Result : Type}

inductive Operation (Key Value : Type) where
  | put (key : Key) (value : Value)
  | get (key : Key)
  | remove (key : Key)
  | pin (key : Key)
  | unpin (key : Key)
  | putAll (entries : List (Entry Key Value)) (replaceExisting : Bool)
  | clear
  | setCacheSize (capacity : Nat)
  | setSoftReferenceSize (capacity : Nat)
  | purgeSoft

inductive Answer (Value : Type) where
  | value (value : Option Value)
  | flag (flag : Bool)
  | count (purged : Nat)
  | done

/-- Whether an answer tells that something was there. -/
def Answer.found {Value : Type} : Answer Value → Bool
  | .value found => found.isSome
  | .flag found => found
  | .count _ | .done => true

namespace Tiers

variable [DecidableEq Key] {host : Host World Key Value} {tiers : Tiers Key Value}

def operate (host : Host World Key Value) (operation : Operation Key Value) (tiers : Tiers Key Value)
    (world : World) : Answer Value × Tiers Key Value × World :=
  match operation with
  | .put key value => (put host key value tiers world).map .value id
  | .get key => (get host key tiers world).map .value id
  | .remove key => (remove host key tiers world).map .value id
  | .pin key => (pin host key tiers world).map .flag id
  | .unpin key => (unpin host key tiers world).map .flag id
  | .putAll entries replaceExisting => (.done, putAll host replaceExisting entries tiers world)
  | .clear => (.done, clear host tiers world)
  | .setCacheSize capacity => (.done, setCacheSize host capacity tiers world)
  | .setSoftReferenceSize capacity => (.done, setSoftReferenceSize host capacity tiers world)
  | .purgeSoft => (purgeSoft host tiers world).map .count id

/-- An operation as what is said to its host. -/
def dialogue (operation : Operation Key Value) (tiers : Tiers Key Value) :
    Dialogue Key Value (Answer Value × Tiers Key Value) :=
  match operation with
  | .put key value => (Dialogue.put key value tiers).wrapping .value
  | .get key => (Dialogue.get key tiers).wrapping .value
  | .remove key => (Dialogue.remove key tiers).wrapping .value
  | .pin key => (Dialogue.pin key tiers).wrapping .flag
  | .unpin key => (Dialogue.unpin key tiers).wrapping .flag
  | .putAll entries replaceExisting => (Dialogue.putAll replaceExisting entries tiers).resulting .done
  | .clear => (Dialogue.clear tiers).resulting .done
  | .setCacheSize capacity => (Dialogue.setCacheSize capacity tiers).resulting .done
  | .setSoftReferenceSize capacity => (Dialogue.setSoftReferenceSize capacity tiers).resulting .done
  | .purgeSoft => (Dialogue.purgeSoft tiers).wrapping .count

theorem perform_dialogue (host : Host World Key Value) (operation : Operation Key Value) (tiers : Tiers Key Value)
    (world : World) : (dialogue operation tiers).perform host world = operate host operation tiers world := by
  cases operation with
  | put => rw [dialogue, Dialogue.perform_wrapping, Dialogue.perform_put, operate]
  | get => rw [dialogue, Dialogue.perform_wrapping, Dialogue.perform_get, operate]
  | remove => rw [dialogue, Dialogue.perform_wrapping, Dialogue.perform_remove, operate]
  | pin => rw [dialogue, Dialogue.perform_wrapping, Dialogue.perform_pin, operate]
  | unpin => rw [dialogue, Dialogue.perform_wrapping, Dialogue.perform_unpin, operate]
  | purgeSoft => rw [dialogue, Dialogue.perform_wrapping, Dialogue.perform_purgeSoft, operate]
  | putAll => rw [dialogue, Dialogue.perform_resulting, Dialogue.run_putAll, operate]
  | setCacheSize => rw [dialogue, Dialogue.perform_resulting, Dialogue.run_setCacheSize, operate]
  | setSoftReferenceSize => rw [dialogue, Dialogue.perform_resulting, Dialogue.run_setSoftReferenceSize, operate]
  | clear => rfl

theorem operate_simulates {other : Host Other Key Value} {related : World → Other → Prop}
    (simulates : host.Simulates other related) (operation : Operation Key Value)
    (tiers : Tiers Key Value) {world : World} {image : Other} (start : related world image) :
    SameOutcome related (operate host operation tiers world) (operate other operation tiers image) := by
  rw [← perform_dialogue, ← perform_dialogue]
  exact perform_simulates simulates _ start

theorem Valid.operate (valid : tiers.Valid) (host : Host World Key Value)
    (operation : Operation Key Value) (world : World) :
    (Tiers.operate host operation tiers world).2.1.Valid := by
  cases operation with
  | put key value => exact valid.put host key value world
  | get key => exact valid.get host key world
  | remove key => exact valid.remove host key world
  | pin key => exact valid.pin host key world
  | unpin key => exact valid.unpin host key world
  | putAll entries replaceExisting => exact valid.putAll host replaceExisting entries world
  | clear => exact valid.clear host world
  | setCacheSize capacity => exact valid.setCacheSize host capacity world
  | setSoftReferenceSize capacity => exact valid.setSoftReferenceSize host capacity world
  | purgeSoft => exact valid.purgeSoft host world

section Order

variable (host : Host World Key Value) (key : Key) (value : Value) (tiers : Tiers Key Value) (world : World)

theorem order_insertPrimary (instant : Instant) :
    (insertPrimary host instant key value tiers world).2.1.primary.order = tiers.primary.order := by
  simp only [insertPrimary]
  split
  · exact PrimaryTier.order_insert _ _ _
  next entry _ =>
    have differ := demote_differ host instant entry
      { tiers with primary := (tiers.primary.insert key value).2 } world
    exact (congrArg PrimaryTier.order differ.primary).trans (PrimaryTier.order_insert _ _ _)

theorem order_put : (put host key value tiers world).2.1.primary.order = tiers.primary.order := by
  cases pinned : tiers.pinned.slot? key with
  | some slot => rw [put_of_pinned pinned]
  | none =>
      rw [put_of_unpinned pinned]
      exact order_insertPrimary host key value (tiers.withoutSoft key) _ _

theorem order_get : (get host key tiers world).2.1.primary.order = tiers.primary.order := by
  cases pinned : tiers.pinned.slot? key with
  | some slot => rw [get_of_pinned pinned]
  | none =>
      cases present : tiers.primary.peek? key with
      | some value =>
          rw [get_of_primary pinned present]
          exact PrimaryTier.order_touch _ _
      | none =>
          cases live : tiers.soft.peek? (host.moment (host.record .getCall world)) key with
          | some value =>
              rw [get_of_soft pinned present live]
              exact order_insertPrimary host key value (tiers.withoutSoft key) _ _
          | none =>
              rw [get_of_missing pinned present live]
              rfl

theorem order_pin : (pin host key tiers world).2.1.primary.order = tiers.primary.order := by
  cases slot : tiers.pinned.slot? key with
  | some held => rw [pin_of_pinned slot]
  | none =>
      cases present : tiers.primary.peek? key with
      | some value =>
          rw [pin_of_primary slot present]
          rfl
      | none =>
          rw [pin_of_absent slot present]
          rfl

theorem order_unpin : (unpin host key tiers world).2.1.primary.order = tiers.primary.order := by
  cases slot : tiers.pinned.slot? key with
  | none => rw [unpin_of_unpinned slot]
  | some held =>
      cases held with
      | none => rw [unpin_of_empty slot]
      | some value =>
          rw [unpin_of_valued slot]
          exact order_insertPrimary host key value { tiers with pinned := (tiers.pinned.unpin key).2 } _ _

theorem order_putEntry (replaceExisting : Bool) (entry : Entry Key Value) :
    (putEntry host replaceExisting entry tiers world).1.primary.order = tiers.primary.order := by
  simp only [putEntry]
  split
  · rfl
  · split
    · exact (order_put host _ _ _ _).trans (order_pin host entry.key tiers world)
    · exact order_put host entry.key entry.value tiers world

theorem order_putAll (replaceExisting : Bool) (entries : List (Entry Key Value)) :
    (putAll host replaceExisting entries tiers world).1.primary.order = tiers.primary.order := by
  induction entries generalizing tiers world with
  | nil => rfl
  | cons entry rest ih => exact (ih _ _).trans (order_putEntry host tiers world replaceExisting entry)

/-- Tiers keep the order that they are made with. -/
theorem order_operate (operation : Operation Key Value) :
    (operate host operation tiers world).2.1.primary.order = tiers.primary.order := by
  cases operation with
  | put key value => exact order_put host key value tiers world
  | get key => exact order_get host key tiers world
  | remove key => rfl
  | pin key => exact order_pin host key tiers world
  | unpin key => exact order_unpin host key tiers world
  | putAll entries replaceExisting => exact order_putAll host tiers world replaceExisting entries
  | clear => rfl
  | setCacheSize capacity =>
      have differ := demoteAll_differ host (host.clock world) (tiers.primary.toList.rdrop capacity)
        { tiers with primary := (tiers.primary.setCapacity capacity).2 } world
      have order := congrArg PrimaryTier.order differ.primary
      rw [← setCacheSize_eq] at order
      exact order
  | setSoftReferenceSize capacity => rfl
  | purgeSoft =>
      have purged := purgeSoft_snd host tiers world
      exact congrArg (fun tiers => tiers.primary.order) purged

end Order

/-- Tiers that operations can lead to, from empty tiers of whatever capacities, order and lifetime. -/
inductive Reachable : Tiers Key Value → Prop where
  | fresh (order : EvictionOrder) (cacheSize softReferenceSize : Nat) (ttl : Option Span) :
      Reachable (.empty order cacheSize softReferenceSize ttl)
  | step {World : Type} {tiers : Tiers Key Value} (before : Reachable tiers)
      (host : Host World Key Value) (operation : Operation Key Value) (world : World) :
      Reachable (operate host operation tiers world).2.1

theorem Reachable.valid (reachable : tiers.Reachable) : tiers.Valid := by
  induction reachable with
  | fresh order cacheSize softReferenceSize ttl => exact .empty order cacheSize softReferenceSize ttl
  | step _ host operation world ih => exact ih.operate host operation world

theorem Reachable.foldl {World : Type} (host : Host World Key Value) (world : World)
    (operations : List (Operation Key Value)) (reachable : tiers.Reachable) :
    (operations.foldl (fun tiers operation => (operate host operation tiers world).2.1) tiers).Reachable := by
  induction operations generalizing tiers with
  | nil => exact reachable
  | cons operation rest ih => exact ih (reachable.step host operation world)

/-- What can be asked of tiers at every moment: capacities that hold, keys that are kept once, and an audit that
finds nothing. -/
structure Sound (tiers : Tiers Key Value) : Prop where
  primaryFits : tiers.primary.toList.length ≤ tiers.cacheSize
  softFits : tiers.soft.toList.length ≤ tiers.softReferenceSize
  keysDistinct : (tiers.pinnedKeys ++ tiers.primaryKeys ++ tiers.softKeys).Nodup
  audit : tiers.audit = .ok ()

theorem Valid.sound (valid : tiers.Valid) : tiers.Sound :=
  ⟨valid.primaryFits, valid.softFits, valid.keysDistinct, valid.audit_eq_ok⟩

end Tiers

end LayeredCache
