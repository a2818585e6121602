import LayeredCache.Proofs.Tiers.OneLine
import LayeredCache.Proofs.Tiers.Readings
import LayeredCache.Proofs.Tiers.Serving

/-! More room never costs a hit. Under the order of use, without a lifetime and without reclaims, a cache shows whatever a
smaller one shows that is used alike, however either divides its room between its tiers. What both hold stands in the same
order of use, and the smaller one has no more room left, so that it is the first to give anything up. -/

set_option autoImplicit false

namespace LayeredCache

variable {World Key Value : Type} [DecidableEq Key]

theorem Bindings.length_erase_add (key : Key) {small large : List (Key × Value)} (kept : small.Sublist large) :
    (erase key large).length + small.length ≤ (erase key small).length + large.length := by
  have split : ∀ bindings : List (Key × Value),
      (erase key bindings).length + (bindings.filter fun binding => !decide (binding.1 ≠ key)).length = bindings.length :=
    fun bindings => (List.length_eq_length_filter_add _).symm
  have fewer := (kept.filter fun binding => !decide (binding.1 ≠ key)).length_le
  have smaller := split small
  have larger := split large
  omega

theorem Bindings.erase_sublist_erase (key : Key) {small large : List (Key × Value)} (kept : small.Sublist large) :
    (erase key small).Sublist (erase key large) :=
  kept.filter _

theorem Bindings.distinct_concat {key : Key} {bindings : List (Key × Value)} (distinct : (bindings.map Prod.fst).Nodup)
    (value : Value) : ((erase key bindings ++ [(key, value)]).map Prod.fst).Nodup := by
  rw [List.map_append, List.map_singleton, List.nodup_append]
  refine ⟨((erase_sublist key bindings).map Prod.fst).nodup distinct, List.pairwise_singleton _ key, ?_⟩
  intro other kept same listed equal
  rw [List.mem_singleton.mp listed] at equal
  exact (mem_keys_erase.mp kept).2 equal

theorem Bindings.distinct_moveToBack {key : Key} {bindings : List (Key × Value)}
    (distinct : (bindings.map Prod.fst).Nodup) : ((moveToBack key bindings).map Prod.fst).Nodup := by
  rw [moveToBack]
  split
  · exact distinct
  · exact distinct_concat distinct _

theorem Bindings.find?_of_sublist {small large : List (Key × Value)} (kept : small.Sublist large)
    (distinct : (large.map Prod.fst).Nodup) {key : Key} {value : Value} (found : find? key small = some value) :
    find? key large = some value :=
  (find?_eq_some_iff distinct).mpr (kept.subset (mem_of_find? found))

/-- The newest entries that a line has room for are among those of a line that holds it and has no less room left. -/
theorem Line.rtake_sublist_rtake {Entry : Type} {small large : List Entry} (kept : small.Sublist large)
    {room more : Nat} (left : room + large.length ≤ more + small.length) :
    (small.rtake room).Sublist (large.rtake more) := by
  have later : large.length - more ≤ small.length - room := by omega
  exact (kept.drop (small.length - room)).trans (List.drop_sublist_drop_left large later)

/-- What a cache is asked for that leaves its pins and its room alone. -/
inductive Use (Key Value : Type) where
  | put (key : Key) (value : Value)
  | get (key : Key)
  | remove (key : Key)
  | containsKey (key : Key)
  | clear

namespace Use

def demand : Use Key Value → Demand Key Value
  | put key value => .put key value
  | get key => .get key
  | remove key => .remove key
  | containsKey key => .containsKey key
  | clear => .clear

/-- The operation that a use comes to, if it is more than a question. -/
def operation? : Use Key Value → Option (Operation Key Value)
  | put key value => some (.put key value)
  | get key => some (.get key)
  | remove key => some (.remove key)
  | containsKey _ => none
  | clear => some .clear

end Use

namespace Lru

variable {small large : Lru Key Value} {key : Key} {value : Value}

/-- A plain cache holds what another holds, in the same order, and has no more room left. -/
structure Within (small large : Lru Key Value) : Prop where
  kept : small.recency.Sublist large.recency
  room : small.capacity + large.recency.length ≤ large.capacity + small.recency.length
  distinct : (large.recency.map Prod.fst).Nodup
  unpinned : ∀ key, small.pins key = none ∧ large.pins key = none

theorem Within.enter (within : Within small large) (key : Key) (value : Value) :
    Within (small.enter key value).2 (large.enter key value).2 := by
  have kept : (Bindings.erase key small.recency ++ [(key, value)]).Sublist
      (Bindings.erase key large.recency ++ [(key, value)]) :=
    (Bindings.erase_sublist_erase key within.kept).append (.refl _)
  have erased := Bindings.length_erase_add key within.kept
  have room := within.room
  have left : small.capacity + (Bindings.erase key large.recency ++ [(key, value)]).length ≤
      large.capacity + (Bindings.erase key small.recency ++ [(key, value)]).length := by
    rw [List.length_append, List.length_append]
    omega
  refine ⟨Line.rtake_sublist_rtake kept left, ?_, ?_, within.unpinned⟩
  · simp only [Lru.enter, trim, Line.length_rtake]
    omega
  · exact ((Line.rtake_sublist _ _).map Prod.fst).nodup (Bindings.distinct_concat within.distinct value)

theorem Within.erase (within : Within small large) (key : Key) :
    Within { small.unpinned key with recency := Bindings.erase key small.recency }
      { large.unpinned key with recency := Bindings.erase key large.recency } where
  kept := Bindings.erase_sublist_erase key within.kept
  room := by
    have erased := Bindings.length_erase_add key within.kept
    have room := within.room
    simp only [Lru.unpinned]
    omega
  distinct := ((Bindings.erase_sublist key _).map Prod.fst).nodup within.distinct
  unpinned other := by
    have still : ∀ {pins : Key → Option (Option Value)}, pins other = none →
        Function.update pins key none other = none := by
      intro pins free
      rw [Function.update_apply, free, ite_self]
    exact ⟨still (within.unpinned other).1, still (within.unpinned other).2⟩

/-- A use of a key makes it the newest wherever it is present. The smaller cache may not hold it. -/
theorem Within.touch (within : Within small large) (key : Key) :
    Within { small with recency := Bindings.moveToBack key small.recency }
      { large with recency := Bindings.moveToBack key large.recency } := by
  have fewer : (small.recency.map Prod.fst).Nodup := (within.kept.map Prod.fst).nodup within.distinct
  refine ⟨?_, ?_, Bindings.distinct_moveToBack within.distinct, within.unpinned⟩
  · cases found : Bindings.find? key small.recency with
    | some value =>
        rw [Bindings.moveToBack_of_present found,
          Bindings.moveToBack_of_present (Bindings.find?_of_sublist within.kept within.distinct found)]
        exact (Bindings.erase_sublist_erase key within.kept).append (.refl _)
    | none =>
        have kept := Bindings.erase_sublist_erase key within.kept
        rw [Bindings.erase_eq_self (Bindings.find?_eq_none_iff.mp found)] at kept
        rw [Bindings.moveToBack_of_absent found]
        cases held : Bindings.find? key large.recency with
        | none =>
            rw [Bindings.moveToBack_of_absent held]
            exact within.kept
        | some value =>
            rw [Bindings.moveToBack_of_present held]
            exact kept.trans (List.sublist_append_left _ _)
  · simp only [Bindings.length_moveToBack fewer, Bindings.length_moveToBack within.distinct]
    exact within.room

/-- What the smaller cache finds, the larger one finds as well, and it goes on holding what the smaller one holds. -/
theorem Within.respond (within : Within small large) (use : Use Key Value) (smallSoft largeSoft : Nat) :
    ((small.respond smallSoft use.demand).1.1.found = true →
        (large.respond largeSoft use.demand).1.1 = (small.respond smallSoft use.demand).1.1) ∧
      Within (small.respond smallSoft use.demand).2 (large.respond largeSoft use.demand).2 := by
  have same : ∀ key, (Bindings.find? key small.recency).isSome = true →
      Bindings.find? key large.recency = Bindings.find? key small.recency := by
    intro key some
    obtain ⟨value, found⟩ := Option.isSome_iff_exists.mp some
    rw [found, Bindings.find?_of_sublist within.kept within.distinct found]
  cases use with
  | put key value =>
      obtain ⟨free, also⟩ := within.unpinned key
      simp only [Use.demand, Lru.respond, free, also]
      exact ⟨fun found => congrArg Answer.value (same key found), within.enter key value⟩
  | get key =>
      obtain ⟨free, also⟩ := within.unpinned key
      simp only [Use.demand, Lru.respond, free, also]
      exact ⟨fun found => congrArg Answer.value (same key found), within.touch key⟩
  | remove key =>
      obtain ⟨free, also⟩ := within.unpinned key
      simp only [Use.demand, Lru.respond, free, also, Option.join_none, Option.none_or]
      exact ⟨fun found => congrArg Answer.value (same key found), within.erase key⟩
  | containsKey key =>
      obtain ⟨free, also⟩ := within.unpinned key
      simp only [Use.demand, Lru.respond, free, also, Option.join_none, Option.isSome_none, Bool.false_or]
      exact ⟨fun found => congrArg (Answer.flag ∘ Option.isSome) (same key found), within⟩
  | clear =>
      have fits := within.room
      have shorter := within.kept.length_le
      refine ⟨fun _ => rfl, .refl _, ?_, List.nodup_nil, fun _ => ⟨rfl, rfl⟩⟩
      simp only [Use.demand, Lru.respond, List.length_nil]
      omega

/-- The answers to uses in turn, and the cache afterwards. -/
def useAll (softReferenceSize : Nat) : List (Use Key Value) → Lru Key Value → List (Answer Value) × Lru Key Value
  | [], cache => ([], cache)
  | use :: rest, cache =>
      let (response, cache) := respond softReferenceSize use.demand cache
      let (answers, cache) := useAll softReferenceSize rest cache
      (response.1 :: answers, cache)

theorem useAll_concat (softReferenceSize : Nat) (uses : List (Use Key Value)) (use : Use Key Value)
    (cache : Lru Key Value) :
    useAll softReferenceSize (uses ++ [use]) cache =
      let used := useAll softReferenceSize uses cache
      (used.1 ++ [(used.2.respond softReferenceSize use.demand).1.1],
        (used.2.respond softReferenceSize use.demand).2) := by
  induction uses generalizing cache with
  | nil => rfl
  | cons first rest ih =>
      rw [List.cons_append, useAll, useAll]
      dsimp only
      rw [ih]
      rfl

theorem Within.useAll (within : Within small large) (uses : List (Use Key Value)) (smallSoft largeSoft : Nat) :
    List.Forall₂ (fun smaller larger => smaller.found = true → larger = smaller)
        (small.useAll smallSoft uses).1 (large.useAll largeSoft uses).1 ∧
      Within (small.useAll smallSoft uses).2 (large.useAll largeSoft uses).2 := by
  induction uses generalizing small large with
  | nil => exact ⟨.nil, within⟩
  | cons use rest ih =>
      obtain ⟨same, next⟩ := within.respond use smallSoft largeSoft
      obtain ⟨answers, after⟩ := ih next
      exact ⟨.cons same answers, after⟩

omit [DecidableEq Key] in
theorem within_empty {capacity more : Nat} (room : capacity ≤ more) :
    Within (.empty capacity : Lru Key Value) (.empty more) :=
  ⟨.refl _, room, List.nodup_nil, fun _ => ⟨rfl, rfl⟩⟩

end Lru

namespace Tiers

variable {softReferenceSize : Nat} {epoch : Epoch} {tiers : Tiers Key Value} {cache : Lru Key Value}
  {host : Host World Key Value} {world : World}

/-- The ways to use fresh tiers in the order of use within one epoch, with the answers, whatever hosts do beside that and
however much time passes. Tiers may be used by themselves; or with a purge first where they are written to, and with a
lookup that may answer at once where a value is asked for. -/
inductive Uses (cacheSize softReferenceSize : Nat) (epoch : Epoch) :
    List (Use Key Value × Answer Value) → Tiers Key Value → Prop where
  | fresh : Uses cacheSize softReferenceSize epoch [] (.empty .lru cacheSize softReferenceSize none)
  | asked {past : List (Use Key Value × Answer Value)} {tiers : Tiers Key Value}
      (before : Uses cacheSize softReferenceSize epoch past tiers) (key : Key) {moment : Moment}
      (here : moment.epoch = epoch) :
      Uses cacheSize softReferenceSize epoch (past ++ [(.containsKey key, .flag (tiers.containsKey moment key))]) tiers
  | looked {World : Type} {past : List (Use Key Value × Answer Value)} {tiers : Tiers Key Value}
      (before : Uses cacheSize softReferenceSize epoch past tiers) (key : Key) (host : Host World Key Value)
      {world : World} (here : host.epoch world = epoch) {found : Option Value}
      (answered : (lookup host key tiers world).1 = found.elim .miss .hit) :
      Uses cacheSize softReferenceSize epoch (past ++ [(.get key, .value found)]) tiers
  | operated {World : Type} {past : List (Use Key Value × Answer Value)} {tiers : Tiers Key Value}
      (before : Uses cacheSize softReferenceSize epoch past tiers) {use : Use Key Value}
      {operation : Operation Key Value} (meant : use.operation? = some operation) {host : Host World Key Value}
      (keeps : host.Keeps fun world => host.epoch world = epoch) {world : World} (here : host.epoch world = epoch) :
      Uses cacheSize softReferenceSize epoch (past ++ [(use, (operate host operation tiers world).1)])
        (operate host operation tiers world).2.1
  | purged {World : Type} {past : List (Use Key Value × Answer Value)} {tiers : Tiers Key Value}
      (before : Uses cacheSize softReferenceSize epoch past tiers) {use : Use Key Value}
      {operation : Operation Key Value} (meant : use.operation? = some operation) {host : Host World Key Value}
      (keeps : host.Keeps fun world => host.epoch world = epoch) {world : World} (here : host.epoch world = epoch) :
      Uses cacheSize softReferenceSize epoch (past ++ [(use, (operateHeld host operation tiers world).1)])
        (operateHeld host operation tiers world).2.1

namespace OneLine

theorem operate (one : OneLine softReferenceSize epoch tiers cache)
    (keeps : host.Keeps fun world => host.epoch world = epoch) (here : host.epoch world = epoch)
    {use : Use Key Value} {operation : Operation Key Value} (meant : use.operation? = some operation) :
    Serves softReferenceSize epoch (Tiers.operate host operation tiers world)
      (cache.respond softReferenceSize use.demand) := by
  cases use with
  | put key value =>
      obtain rfl := Option.some.inj meant
      exact one.put keeps here key value
  | get key =>
      obtain rfl := Option.some.inj meant
      exact one.get keeps here key
  | remove key =>
      obtain rfl := Option.some.inj meant
      exact one.remove keeps here key
  | clear =>
      obtain rfl := Option.some.inj meant
      exact one.clear host world
  | containsKey key => cases meant

/-- Where every entry is live, a purge takes nothing away. -/
theorem purgeSoft (one : OneLine softReferenceSize epoch tiers cache) (here : host.epoch world = epoch) :
    OneLine softReferenceSize epoch (Tiers.purgeSoft host tiers world).2.1 cache := by
  have kept : (tiers.soft.purge (host.moment world)).2.toList = tiers.soft.toList := by
    rw [(tiers.soft.purge_eq _).2, List.dropWhile_eq_self_iff]
    intro nonempty
    rw [SoftTier.isLive, one.isLive (show (host.moment world).epoch = epoch from here) _ (List.getElem_mem nonempty)]
    exact Bool.false_ne_true
  have valid := one.valid.purgeSoft host world
  rw [purgeSoft_snd] at valid ⊢
  exact { one with
    valid
    epochs := by
      rw [kept]
      exact one.epochs
    line := by
      rw [← one.line, Tiers.line, Tiers.line, kept] }

theorem operateHeld (one : OneLine softReferenceSize epoch tiers cache)
    (keeps : host.Keeps fun world => host.epoch world = epoch) (here : host.epoch world = epoch)
    {use : Use Key Value} {operation : Operation Key Value} (meant : use.operation? = some operation) :
    Serves softReferenceSize epoch (Tiers.operateHeld host operation tiers world)
      (cache.respond softReferenceSize use.demand) := by
  have still := (purgeSoft_simulates keeps.simulates tiers (show world = world ∧ host.epoch world = epoch from ⟨rfl, here⟩)).2.2.2
  rcases operateHeld_cases host operation tiers world with ⟨rfl, -⟩ | purged
  · cases use <;> cases meant
  · rw [purged]
    exact (one.purgeSoft here).operate keeps still meant

/-- A lookup that is answered finds nothing that a get would have to move. -/
theorem lookup (one : OneLine softReferenceSize epoch tiers cache) (here : host.epoch world = epoch) {key : Key}
    {found : Option Value} (answered : (Tiers.lookup host key tiers world).1 = found.elim .miss .hit) :
    Answer.value found = (cache.respond softReferenceSize (.get key)).1.1 ∧
      OneLine softReferenceSize epoch tiers (cache.respond softReferenceSize (.get key)).2 := by
  have pins := one.pins key
  have value := one.find? (show (host.moment world).epoch = epoch from here) key
  have needless : (found.elim .miss .hit : Lookup Value) ≠ .needsWrite := by
    cases found <;> exact nofun
  rw [Tiers.lookup] at answered
  cases slot : tiers.pinned.slot? key with
  | some held =>
      rw [slot] at pins answered
      simp only [Lru.respond, ← pins]
      refine ⟨congrArg Answer.value ?_, one⟩
      cases held with
      | some value =>
          cases found with
          | none => cases answered
          | some shown => exact congrArg some (Lookup.hit.inj answered).symm
      | none =>
          cases found with
          | none => rfl
          | some shown => cases answered
  | none =>
      rw [slot] at pins answered
      cases present : tiers.primary.peek? key with
      | some stored =>
          simp only [present, one.order, EvictionOrder.isLru, ↓reduceIte] at answered
          exact absurd answered.symm needless
      | none =>
          rw [present] at value answered
          dsimp only at answered
          split at answered
          next => exact absurd answered.symm needless
          next dead =>
            have nothing : found = none := by
              cases found with
              | none => rfl
              | some shown => cases answered
            rw [SoftTier.contains, Bool.not_eq_true, Option.isSome_eq_false_iff, Option.isNone_iff_eq_none] at dead
            rw [dead, Option.none_or] at value
            simp only [Lru.respond, ← pins, ← value, Bindings.moveToBack_of_absent value.symm, nothing]
            exact ⟨trivial, one⟩

/-- What is visible in the tiers is what the line holds, when nothing is pinned. -/
theorem mem_entries (one : OneLine softReferenceSize epoch tiers cache) (unpinned : ∀ key, cache.pins key = none)
    {moment : Moment} (here : moment.epoch = epoch) {binding : Key × Value} :
    binding ∈ (tiers.entries moment).map Entry.binding ↔ binding ∈ cache.recency := by
  have distinct : ((cache.recency).map Prod.fst).Nodup := by
    rw [← one.line]
    exact one.valid.line_distinct
  have shown : (((tiers.entries moment).map Entry.binding).map Prod.fst).Nodup := by
    rw [List.map_map]
    exact one.valid.distinct_entries moment
  rw [← Bindings.find?_eq_some_iff shown, ← Bindings.find?_eq_some_iff distinct, find?_entries,
    value?_of_unpinned ((one.pins binding.1).trans (unpinned binding.1)), one.find? here]

end OneLine

/-- Tiers that are used stay one with the plain cache that is used alike, and answer what it answers. -/
theorem Uses.oneLine {cacheSize : Nat} {past : List (Use Key Value × Answer Value)}
    (uses : Uses cacheSize softReferenceSize epoch past tiers) :
    let single := (Lru.empty (cacheSize + softReferenceSize)).useAll softReferenceSize (past.map Prod.fst)
    past.map Prod.snd = single.1 ∧ OneLine softReferenceSize epoch tiers single.2 := by
  have extend : ∀ {past : List (Use Key Value × Answer Value)} {use : Use Key Value} {answer : Answer Value}
      {tiers : Tiers Key Value},
      let single := (Lru.empty (cacheSize + softReferenceSize)).useAll softReferenceSize (past.map Prod.fst)
      past.map Prod.snd = single.1 → answer = (single.2.respond softReferenceSize use.demand).1.1 →
        OneLine softReferenceSize epoch tiers (single.2.respond softReferenceSize use.demand).2 →
          let longer := (Lru.empty (cacheSize + softReferenceSize)).useAll softReferenceSize
            ((past ++ [(use, answer)]).map Prod.fst)
          (past ++ [(use, answer)]).map Prod.snd = longer.1 ∧ OneLine softReferenceSize epoch tiers longer.2 := by
    intro past use answer tiers single answers answered one
    rw [List.map_append, List.map_append, List.map_singleton, List.map_singleton, Lru.useAll_concat, answers, answered]
    exact ⟨rfl, one⟩
  induction uses with
  | fresh => exact ⟨rfl, oneLine_empty cacheSize softReferenceSize epoch⟩
  | asked before key here ih => exact extend ih.1 (ih.2.containsKey here key) ih.2
  | looked before key host here answered ih =>
      obtain ⟨same, one⟩ := ih.2.lookup here answered
      exact extend ih.1 same one
  | operated before meant keeps here ih =>
      obtain ⟨same, one⟩ := ih.2.operate keeps here meant
      exact extend ih.1 same one
  | purged before meant keeps here ih =>
      obtain ⟨same, one⟩ := ih.2.operateHeld keeps here meant
      exact extend ih.1 same one

/-- To serve an operation is a use, be it a lookup that is answered or a purge with what comes after it. -/
theorem Uses.serve {cacheSize : Nat} {past : List (Use Key Value × Answer Value)}
    (uses : Uses cacheSize softReferenceSize epoch past tiers) {use : Use Key Value} {operation : Operation Key Value}
    (meant : use.operation? = some operation) (keeps : host.Keeps fun world => host.epoch world = epoch)
    (here : host.epoch world = epoch) :
    Uses cacheSize softReferenceSize epoch (past ++ [(use, (Tiers.serve host operation tiers world).1)])
      (Tiers.serve host operation tiers world).2.1 := by
  cases use with
  | put key value | remove key | clear =>
      obtain rfl := Option.some.inj meant
      exact uses.purged meant keeps here
  | containsKey key => cases meant
  | get key =>
      obtain rfl := Option.some.inj meant
      rw [Tiers.serve]
      cases looked : Tiers.lookup host key tiers world with
      | mk outcome after =>
          cases outcome with
          | hit value =>
              have told : (Tiers.lookup host key tiers world).1 = (some value).elim Lookup.miss Lookup.hit :=
                congrArg Prod.fst looked
              exact uses.looked key host here told
          | miss =>
              have told : (Tiers.lookup host key tiers world).1 = (none : Option Value).elim Lookup.miss Lookup.hit :=
                congrArg Prod.fst looked
              exact uses.looked key host here told
          | needsWrite =>
              have same := looked.symm.trans (lookup_of_needsWrite (congrArg Prod.fst looked))
              obtain ⟨-, rfl⟩ := Prod.mk.inj same
              exact uses.purged meant keeps here

/-- Caches that are used alike are one with plain caches of which one holds what the other holds, and what the first finds
the second finds as well, if it has no less room in all. -/
theorem Uses.within {cacheSize largerCacheSize largerSoftReferenceSize : Nat} {later : Epoch}
    {first second : List (Use Key Value × Answer Value)} {small large : Tiers Key Value}
    (room : cacheSize + softReferenceSize ≤ largerCacheSize + largerSoftReferenceSize)
    (uses : Uses cacheSize softReferenceSize epoch first small)
    (others : Uses largerCacheSize largerSoftReferenceSize later second large)
    (alike : first.map Prod.fst = second.map Prod.fst) :
    List.Forall₂ (fun smaller larger => smaller.found = true → larger = smaller)
        (first.map Prod.snd) (second.map Prod.snd) ∧
      ∀ {here there : Moment}, here.epoch = epoch → there.epoch = later →
        (small.entries here).map Entry.binding ⊆ (large.entries there).map Entry.binding := by
  obtain ⟨answers, one⟩ := uses.oneLine
  obtain ⟨found, other⟩ := others.oneLine
  rw [← alike] at found other
  obtain ⟨same, within⟩ := (Lru.within_empty room).useAll (first.map Prod.fst) softReferenceSize largerSoftReferenceSize
  rw [answers, found]
  refine ⟨same, ?_⟩
  intro here there now also binding shown
  rw [other.mem_entries (fun key => (within.unpinned key).2) also]
  rw [one.mem_entries (fun key => (within.unpinned key).1) now] at shown
  exact within.kept.subset shown

end Tiers

end LayeredCache
