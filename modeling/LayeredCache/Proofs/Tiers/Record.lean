import LayeredCache.Proofs.Tiers.Contents
import LayeredCache.Proofs.Tiers.Operation

/-! Tiers beside a plain map without bounds that only writes change. Whatever tiers have lost, what they store is what
the map records, and so is everything they show or hand out. -/

set_option autoImplicit false

namespace LayeredCache

variable {World Key Value : Type} [DecidableEq Key]

/-- The key that an operation hands out a value of. -/
def Operation.subject : Operation Key Value → Option Key
  | .put key _ | .get key | .remove key => some key
  | .pin _ | .unpin _ | .putAll _ _ | .clear | .setCacheSize _ | .setSoftReferenceSize _ | .purgeSoft => none

namespace Tiers

variable {host : Host World Key Value} {tiers after : Tiers Key Value} {map : Key → Option Value}
  {key : Key} {value : Value}

/-- The entries among those of a copy that the copy puts, in order. -/
def copied (host : Host World Key Value) (replaceExisting : Bool) :
    List (Entry Key Value) → Tiers Key Value → World → List (Entry Key Value)
  | [], _, _ => []
  | entry :: rest, tiers, world =>
      let (after, next) := putEntry host replaceExisting entry tiers world
      if !replaceExisting && tiers.containsKey (host.moment world) entry.key then
        copied host replaceExisting rest after next
      else entry :: copied host replaceExisting rest after next

theorem copied_sublist (host : Host World Key Value) (replaceExisting : Bool) (entries : List (Entry Key Value))
    (tiers : Tiers Key Value) (world : World) :
    (copied host replaceExisting entries tiers world).Sublist entries := by
  induction entries generalizing tiers world with
  | nil => exact .slnil
  | cons entry rest ih =>
      simp only [copied]
      split
      · exact (ih _ _).cons _
      · exact (ih _ _).cons_cons _

/-- A plain map after puts. -/
def written (map : Key → Option Value) (entries : List (Entry Key Value)) : Key → Option Value :=
  entries.foldl (fun map entry => Function.update map entry.key (some entry.value)) map

/-- A plain map after an operation on the tiers beside it. -/
def recorded (host : Host World Key Value) (operation : Operation Key Value) (tiers : Tiers Key Value)
    (world : World) (map : Key → Option Value) : Key → Option Value :=
  match operation with
  | .put key value => Function.update map key (some value)
  | .remove key => Function.update map key none
  | .putAll entries replaceExisting => written map (copied host replaceExisting entries tiers world)
  | .clear => fun _ => none
  | .get _ | .pin _ | .unpin _ | .setCacheSize _ | .setSoftReferenceSize _ | .purgeSoft => map

/-- Tiers that operations can lead to, with the plain map beside them. -/
inductive Recorded : Tiers Key Value → (Key → Option Value) → Prop where
  | fresh (order : EvictionOrder) (cacheSize softReferenceSize : Nat) (ttl : Option Span) :
      Recorded (.empty order cacheSize softReferenceSize ttl) fun _ => none
  | step {World : Type} {tiers : Tiers Key Value} {map : Key → Option Value}
      (before : Recorded tiers map) (host : Host World Key Value) (operation : Operation Key Value)
      (world : World) :
      Recorded (operate host operation tiers world).2.1 (recorded host operation tiers world map)

/-- What the tiers store, live or not, is what the map records. -/
def Agrees (tiers : Tiers Key Value) (map : Key → Option Value) : Prop :=
  ∀ key value, tiers.Stores key value → map key = some value

theorem Agrees.narrow (agrees : Agrees tiers map) (less : StoresNoMore tiers after) : Agrees after map :=
  fun key value stores => agrees key value (less key value stores)

theorem Agrees.supersede (agrees : Agrees tiers map) (supersedes : Supersedes key value tiers after) :
    Agrees after (Function.update map key (some value)) := by
  intro other found stores
  rcases supersedes other found stores with ⟨rfl, rfl⟩ | ⟨differs, before⟩
  · exact Function.update_self ..
  · rw [Function.update_of_ne differs]
    exact agrees other found before

theorem agrees_putAll (valid : tiers.Valid) (agrees : Agrees tiers map)
    (host : Host World Key Value) (replaceExisting : Bool) (entries : List (Entry Key Value))
    (world : World) :
    Agrees (putAll host replaceExisting entries tiers world).1
      (written map (copied host replaceExisting entries tiers world)) := by
  induction entries generalizing tiers map world with
  | nil => exact agrees
  | cons entry rest ih =>
      have validAfter := valid.putEntry host replaceExisting entry world
      simp only [putAll, copied]
      split
      next kept =>
        refine ih validAfter ?_ _
        rw [putEntry, if_pos kept]
        exact agrees
      next written =>
        refine ih validAfter ?_ _
        rw [putEntry, if_neg written]
        split
        · exact (agrees.narrow (pin_storesNoMore host entry.key tiers world)).supersede
            (put_supersedes (valid.pin host entry.key world) host entry.key entry.value _)
        · exact agrees.supersede (put_supersedes valid host entry.key entry.value world)

theorem agrees_operate (valid : tiers.Valid) (agrees : Agrees tiers map) (host : Host World Key Value)
    (operation : Operation Key Value) (world : World) :
    Agrees (operate host operation tiers world).2.1 (recorded host operation tiers world map) := by
  cases operation with
  | put key value => exact agrees.supersede (put_supersedes valid host key value world)
  | get key => exact agrees.narrow (get_storesNoMore valid host key world)
  | remove key =>
      intro other found stores
      obtain ⟨differs, before⟩ := remove_stores host key tiers world stores
      exact (Function.update_of_ne differs _ _).trans (agrees other found before)
  | pin key => exact agrees.narrow (pin_storesNoMore host key tiers world)
  | unpin key => exact agrees.narrow (unpin_storesNoMore valid host key world)
  | putAll entries replaceExisting => exact agrees_putAll valid agrees host replaceExisting entries world
  | clear => exact fun _ _ stores => absurd stores (clear_stores host tiers world)
  | setCacheSize capacity => exact agrees.narrow (setCacheSize_storesNoMore valid host capacity world)
  | setSoftReferenceSize capacity =>
      exact agrees.narrow (setSoftReferenceSize_storesNoMore host capacity tiers world)
  | purgeSoft => exact agrees.narrow (purgeSoft_storesNoMore host tiers world)

theorem Recorded.reachable (recorded : Recorded tiers map) : tiers.Reachable := by
  induction recorded with
  | fresh order cacheSize softReferenceSize ttl => exact .fresh order cacheSize softReferenceSize ttl
  | step _ host operation world ih => exact ih.step host operation world

theorem Recorded.agrees (recorded : Recorded tiers map) : Agrees tiers map := by
  induction recorded with
  | fresh order cacheSize softReferenceSize ttl =>
      intro key value stores
      cases stores with
      | pinned slot => cases slot
      | primary member => cases member
      | soft stamp member => cases member
  | step before host operation world ih => exact agrees_operate before.reachable.valid ih host operation world

/-- A value that an operation hands out was stored for its key. -/
theorem operate_stored (valid : tiers.Valid) (host : Host World Key Value)
    (operation : Operation Key Value) (world : World) (subject : operation.subject = some key)
    (answered : (operate host operation tiers world).1 = .value (some value)) :
    tiers.Stores key value := by
  cases operation with
  | put written _ =>
      obtain rfl := Option.some.inj subject
      exact put_stored valid host world (Answer.value.inj answered)
  | get read =>
      obtain rfl := Option.some.inj subject
      exact get_stored host tiers world (Answer.value.inj answered)
  | remove removed =>
      obtain rfl := Option.some.inj subject
      exact remove_stored host tiers world (Answer.value.inj answered)
  | pin _ | unpin _ | putAll _ _ | clear | setCacheSize _ | setSoftReferenceSize _ | purgeSoft =>
      cases subject

theorem stores_of_mem_entries {moment : Moment} {entry : Entry Key Value}
    (member : entry ∈ tiers.entries moment) : tiers.Stores entry.key entry.value := by
  rw [entries, List.mem_append, List.mem_append] at member
  rcases member with (pinned | primary) | soft
  · obtain ⟨⟨key, value⟩, listed, rfl⟩ := List.mem_map.mp pinned
    exact .pinned (PinnedTier.mem_toList_iff.mp listed)
  · obtain ⟨stored, listed, rfl⟩ := List.mem_map.mp primary
    exact .primary listed
  · obtain ⟨shown, listed, rfl⟩ := List.mem_map.mp soft
    obtain ⟨stored, live, rfl⟩ := List.mem_map.mp listed
    exact .soft stored.2.stamp (List.mem_filter.mp live).1

/-- Nothing that tiers show is missing from a map, or differs there. -/
structure Truthful (tiers : Tiers Key Value) (map : Key → Option Value) : Prop where
  visible : ∀ moment, ∀ entry ∈ tiers.entries moment, map entry.key = some entry.value
  pinned : ∀ key value, tiers.pinned.slot? key = some (some value) → map key = some value

theorem Agrees.truthful (agrees : Agrees tiers map) : tiers.Truthful map where
  visible _ entry member := agrees entry.key entry.value (stores_of_mem_entries member)
  pinned key value slot := agrees key value (.pinned slot)

end Tiers

end LayeredCache
