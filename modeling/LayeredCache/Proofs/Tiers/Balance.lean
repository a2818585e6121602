import LayeredCache.Proofs.Tiers.Recordings
import LayeredCache.Proofs.Tiers.Victims
import Mathlib.Data.List.Nodup

/-! The balance of the soft tier. Entries come to it by being demoted and leave it by being displaced, reclaimed, promoted
or taken, and every deed accounts for all of them: what its events and counts tell is the difference in what is stored. -/

set_option autoImplicit false

namespace LayeredCache

open Metrics (Counter Recording total)

variable {World Key Value : Type}

/-- The counters of entries that are moved on without being asked for. -/
def Metrics.Counter.moves : List Counter := [.primaryOverflows, .softDemotions, .softOverflows, .softReclaimed]

/-- Events of one kind are counted by a counter all of them or none. -/
theorem countP_map_event {Item : Type} {event : Item → Event Key Value} {counter : Counter} {counted : Bool}
    (all : ∀ item, (event item).counts counter = counted) (items : List Item) :
    (items.map event).countP (Event.counts counter) = if counted then items.length else 0 := by
  rw [List.countP_map, show Event.counts counter ∘ event = fun _ => counted from funext all]
  cases counted with
  | true => exact List.countP_eq_length.mpr fun _ _ => rfl
  | false => exact List.countP_eq_zero.mpr fun _ _ => Bool.false_ne_true

variable [DecidableEq Key]

/-- No call is counted as an entry that is moved. -/
theorem Deed.total_callRecordings (done : Deed Key Value) :
    ∀ counter ∈ Counter.moves, total counter done.callRecordings = 0 := by
  rw [callRecordings]
  split
  · split
    · decide
    · split <;> decide
  · rw [Tiers.getRecordings]
    split
    · decide
    · split
      · decide
      · split <;> decide
  · split <;> decide
  · split <;> decide
  · split <;> decide
  all_goals decide

namespace Tiers

/-- What the soft tier stores has changed by what events tell: entries were demoted to it, and others displaced. -/
structure Flows (events : List (Event Key Value)) (before after : Tiers Key Value) : Prop where
  stored : before.softKeys.length + events.countP (Event.counts .softDemotions) =
    after.softKeys.length + events.countP (Event.counts .softOverflows)
  kept : events.countP (Event.counts .softReclaimed) = 0

variable {host : Host World Key Value} {operation : Operation Key Value} {tiers between entered after : Tiers Key Value}
  {events more : List (Event Key Value)} {key : Key} {value : Value} {world : World} {done : Deed Key Value}

theorem Flows.nothing (same : after.softKeys.length = tiers.softKeys.length) : Flows [] tiers after :=
  ⟨congrArg (· + 0) same.symm, rfl⟩

theorem Flows.trans (first : Flows events tiers between) (second : Flows more between after) :
    Flows (events ++ more) tiers after := by
  constructor
  · have start := first.stored
    have rest := second.stored
    rw [List.countP_append, List.countP_append]
    omega
  · rw [List.countP_append, first.kept, second.kept]

theorem flows_demote (host : Host World Key Value) (instant : Instant) (entry : Key × Value)
    (fits : tiers.soft.toList.length ≤ tiers.soft.capacity) (absent : entry.1 ∉ tiers.softKeys)
    (state : World × List (Event Key Value)) :
    ∃ events, (demote host.logging instant entry tiers state).2.2 = state.2 ++ events ∧
      Flows events tiers (demote host.logging instant entry tiers state).1 := by
  by_cases disabled : tiers.soft.capacity = 0
  · rw [demote_disabled disabled]
    exact ⟨[.primaryOverflow entry.1 entry.2 false], rfl, rfl, rfl⟩
  · obtain ⟨outcome, line⟩ := SoftTier.accept_line fits
      ⟨instant, host.logging.epoch (overflowTold host.logging true entry state)⟩ entry.1 entry.2
    rw [SoftTier.offered_of_absent absent] at outcome line
    rw [demote_enabled (Nat.pos_of_ne_zero disabled)]
    dsimp only
    rw [outcome]
    have offered (stamped : Key × Stamped Value) :
        (tiers.soft.toList ++ [stamped]).length = tiers.softKeys.length + 1 := by
      rw [List.length_append, softKeys, List.length_map, List.length_singleton]
    have stored := (congrArg List.length line).trans (Line.length_rtake ..)
    have kept : tiers.softKeys.length ≤ tiers.soft.capacity := by
      rwa [softKeys, List.length_map]
    rw [offered] at stored
    cases surplus : (tiers.soft.toList ++ [_]).rdrop tiers.soft.capacity with
    | nil =>
        have fit := congrArg List.length surplus
        rw [List.rdrop, List.length_take, offered, List.length_nil] at fit
        refine ⟨[.primaryOverflow entry.1 entry.2 true], rfl, ?_, rfl⟩
        show tiers.softKeys.length + 1 = (List.map Prod.fst _).length
        rw [List.length_map, stored]
        omega
    | cons dropped rest =>
        have full := congrArg List.length surplus
        rw [List.rdrop, List.length_take, offered, List.length_cons] at full
        refine ⟨[.primaryOverflow entry.1 entry.2 true, .softOverflow dropped.1 dropped.2.value],
          List.append_assoc .., ?_, rfl⟩
        show tiers.softKeys.length + 1 = (List.map Prod.fst _).length + 1
        rw [List.length_map, stored]
        omega

theorem flows_demoteAll (host : Host World Key Value) (instant : Instant) {entries : List (Key × Value)}
    (distinct : (entries.map Prod.fst).Nodup) (fits : tiers.soft.toList.length ≤ tiers.soft.capacity)
    (apart : ∀ key ∈ entries.map Prod.fst, key ∉ tiers.softKeys) (state : World × List (Event Key Value)) :
    ∃ events, (demoteAll host.logging instant entries tiers state).2.2 = state.2 ++ events ∧
      Flows events tiers (demoteAll host.logging instant entries tiers state).1 := by
  induction entries generalizing tiers state with
  | nil => exact ⟨[], (List.append_nil _).symm, .nothing rfl⟩
  | cons entry rest ih =>
      obtain ⟨fitsAfter, apartAfter⟩ := demote_prepares host.logging instant distinct state fits apart
      obtain ⟨events, told, first⟩ := flows_demote host instant entry fits (apart entry.1 List.mem_cons_self) state
      obtain ⟨more, later, second⟩ := ih (List.nodup_cons.mp distinct).2 fitsAfter apartAfter
        (demote host.logging instant entry tiers state).2
      rw [demoteAll]
      refine ⟨events ++ more, ?_, first.trans second⟩
      rw [later, told, List.append_assoc]

theorem flows_insertPrimary (valid : tiers.Valid) (softAbsent : key ∉ tiers.softKeys) (host : Host World Key Value)
    (instant : Instant) (value : Value) (state : World × List (Event Key Value)) :
    let inserted := insertPrimary host.logging instant key value tiers state
    ∃ events, inserted.2.2.2 = state.2 ++ events ∧ Flows events tiers inserted.2.1 := by
  cases found : Bindings.find? key tiers.primary.toList with
  | some old =>
      rw [insertPrimary_present found]
      exact ⟨[], (List.append_nil _).symm, .nothing rfl⟩
  | none =>
      have surplus := (Line.rdrop_sublist (tiers.primary.toList ++ [(key, value)])
        tiers.primary.capacity).map Prod.fst
      rw [insertPrimary_absent valid.primaryFits found]
      have apart : ∀ other ∈ ((tiers.primary.toList ++ [(key, value)]).rdrop tiers.primary.capacity).map Prod.fst,
          other ∉ tiers.softKeys :=
        fun other member => valid.newLine_apart softAbsent value other (surplus.subset member)
      obtain ⟨events, told, flows⟩ :=
        @flows_demoteAll World Key Value _ { tiers with primary := (tiers.primary.insert key value).2 } host instant _
          (surplus.nodup (PrimaryTier.keysDistinct_concat found)) valid.softFits apart state
      exact ⟨events, told, flows.stored, flows.kept⟩

end Tiers

namespace Deed

/-- The soft entries that a deed takes out because its key is put, removed, pinned or found dead, or because everything is
cleared. -/
def taken (done : Deed Key Value) : Nat :=
  match done.operation, done.answer with
  | .put key _, _ | .remove key, _ | .pin key, _ | .get key, .value none => done.before.softKeys.count key
  | .clear, _ => done.before.softKeys.length
  | _, _ => 0

/-- What was stored in the soft tier and came to it is what is stored now and left it. -/
def Balanced (done : Deed Key Value) : Prop :=
  done.before.soft.storedSize + total .softDemotions done.recordings =
    done.after.soft.storedSize + total .softOverflows done.recordings + total .softPromotions done.recordings +
      total .softReclaimed done.recordings + done.taken

end Deed

theorem length_filter_add_count (key : Key) (line : List Key) :
    (line.filter fun other => other ≠ key).length + line.count key = line.length := by
  induction line with
  | nil => rfl
  | cons head rest ih =>
      by_cases here : head = key
      · subst here
        simp only [ne_eq, not_true_eq_false, decide_false, Bool.false_eq_true, not_false_eq_true, List.filter_cons_of_neg,
          List.count_cons_self, List.length_cons]
        exact congrArg (· + 1) ih
      · simp only [ne_eq, here, not_false_eq_true, decide_true, List.filter_cons_of_pos, List.count_cons_of_ne,
          List.length_cons]
        rw [Nat.add_right_comm]
        exact congrArg (· + 1) ih

namespace Tiers

variable {host : Host World Key Value} {operation : Operation Key Value} {tiers entered : Tiers Key Value}
  {key : Key} {value : Value} {world : World} {done : Deed Key Value}

theorem storedSize_soft (tiers : Tiers Key Value) : tiers.soft.storedSize = tiers.softKeys.length := by
  rw [softKeys, List.length_map, SoftTier.storedSize, KeyedQueue.size_eq]
  rfl

/-- What the counters of moved entries have counted of a deed are its events. -/
theorem total_moves (done : Deed Key Value) {counter : Counter} (moves : counter ∈ Counter.moves) :
    total counter done.recordings = done.events.countP (Event.counts counter) := by
  rw [Deed.recordings, Metrics.total_append, done.total_callRecordings counter moves, total_events, Nat.zero_add]

theorem total_moves_flatMap (deeds : List (Deed Key Value)) {counter : Counter} (moves : counter ∈ Counter.moves) :
    total counter (deeds.flatMap Deed.recordings) = (deeds.flatMap Deed.events).countP (Event.counts counter) := by
  induction deeds with
  | nil => rfl
  | cons done rest ih =>
      rw [List.flatMap_cons, List.flatMap_cons, Metrics.total_append, List.countP_append, ih, total_moves done moves]

/-- A deed whose key left the soft tier, be it promoted or taken, before anything else was moved. -/
theorem balanced_of_flows (flows : Flows done.events entered done.after)
    (start : done.before.softKeys.length =
      entered.softKeys.length + (total .softPromotions done.callRecordings + done.taken)) : done.Balanced := by
  have promoted : total .softPromotions done.recordings = total .softPromotions done.callRecordings := by
    have none : done.events.countP (Event.counts .softPromotions) = 0 := by
      refine List.countP_eq_zero.mpr ?_
      intro event _
      cases event with
      | primaryOverflow key value demoted => cases demoted <;> exact Bool.false_ne_true
      | softOverflow | softReclaimed => exact Bool.false_ne_true
    rw [Deed.recordings, Metrics.total_append, total_events, none, Nat.add_zero]
  have stored := flows.stored
  have kept := flows.kept
  rw [Deed.Balanced, promoted, total_moves done (by decide), total_moves done (by decide), total_moves done (by decide),
    kept, storedSize_soft, storedSize_soft]
  omega

/-- A deed that takes one key out of the soft tier, if it is there, accounts for it if it counts it as promoted or
taken. -/
theorem balanced_of_gone (flows : Flows done.events entered done.after)
    (gone : entered.softKeys = done.before.softKeys.filter fun other => other ≠ key)
    (accounts : total .softPromotions done.callRecordings + done.taken = done.before.softKeys.count key) :
    done.Balanced := by
  refine balanced_of_flows flows ?_
  rw [accounts, gone, length_filter_add_count]

/-- A deed in silence that takes out one key at most. -/
theorem balanced_of_silence (silent : done.events = [])
    (gone : done.after.softKeys = done.before.softKeys.filter fun other => other ≠ key)
    (accounts : total .softPromotions done.callRecordings + done.taken = done.before.softKeys.count key) :
    done.Balanced := by
  refine balanced_of_gone ?_ gone accounts
  rw [silent]
  exact .nothing rfl

theorem Enters.balanced (enters : Enters host entered key done)
    (accounts : total .softPromotions done.callRecordings + done.taken = done.before.softKeys.count key) :
    done.Balanced := by
  obtain ⟨instant, value, start, told, left⟩ := enters.inserted
  obtain ⟨events, later, flows⟩ := flows_insertPrimary enters.valid enters.softAbsent host instant value (start, [])
  rw [List.nil_append] at later
  rw [← later, ← told, ← left] at flows
  exact balanced_of_gone flows enters.soft accounts

/-- Only a get promotes entries. -/
theorem promoted_eq_zero (done : Deed Key Value) (other : ∀ key, done.operation ≠ .get key) :
    total .softPromotions done.callRecordings = 0 := by
  obtain ⟨operation, before, answer, events, after⟩ := done
  cases operation with
  | get key => exact absurd rfl (other key)
  | put key value =>
      simp only [Deed.callRecordings]
      split
      · rfl
      · split <;> rfl
  | remove | pin | unpin =>
      simp only [Deed.callRecordings]
      split <;> rfl
  | putAll | clear | setCacheSize | setSoftReferenceSize | purgeSoft => rfl

/-- What a put, a remove or a pin takes out of the soft tier is its key. -/
theorem accounts_of_taken (done : Deed Key Value) (other : ∀ key, done.operation ≠ .get key)
    (taken : done.taken = done.before.softKeys.count key) :
    total .softPromotions done.callRecordings + done.taken = done.before.softKeys.count key := by
  rw [promoted_eq_zero done other, Nat.zero_add, taken]

theorem balanced_put (valid : tiers.Valid) (host : Host World Key Value) (key : Key) (value : Value) (world : World) :
    (deed host (.put key value) tiers world).Balanced := by
  cases slot : tiers.pinned.slot? key with
  | none => exact (enters_put valid slot host value world).balanced (accounts_of_taken _ nofun rfl)
  | some held =>
      rw [deed_eq]
      show (Deed.logged _ tiers ((put host.logging key value tiers (world, [])).map .value id)).Balanced
      rw [put_of_pinned slot]
      exact balanced_of_silence rfl (filter_of_absent (valid.softAbsent_of_pinned slot)).symm
        (accounts_of_taken _ nofun rfl)

theorem balanced_remove (host : Host World Key Value) (key : Key) (tiers : Tiers Key Value) (world : World) :
    (deed host (.remove key) tiers world).Balanced := by
  rw [deed_eq]
  show (Deed.logged _ tiers ((remove host.logging key tiers (world, [])).map .value id)).Balanced
  rw [remove_eq]
  refine balanced_of_silence ?_ (softKeys_withoutSoft tiers key) (accounts_of_taken _ nofun rfl)
  dsimp only [Deed.logged, Prod.map, id]
  split <;> rfl

theorem balanced_pin (valid : tiers.Valid) (host : Host World Key Value) (key : Key) (world : World) :
    (deed host (.pin key) tiers world).Balanced := by
  rw [deed_eq]
  show (Deed.logged _ tiers ((pin host.logging key tiers (world, [])).map .flag id)).Balanced
  cases slot : tiers.pinned.slot? key with
  | some held =>
      rw [pin_of_pinned slot]
      refine balanced_of_silence ?_ (filter_of_absent (valid.softAbsent_of_pinned slot)).symm
        (accounts_of_taken _ nofun rfl)
      cases held <;> rfl
  | none =>
      cases present : tiers.primary.peek? key with
      | some value =>
          rw [pin_of_primary slot present]
          exact balanced_of_silence rfl (filter_of_absent (valid.softAbsent_of_peek present)).symm
            (accounts_of_taken _ nofun rfl)
      | none =>
          rw [pin_of_absent slot present]
          refine balanced_of_silence ?_ (softKeys_withoutSoft tiers key) (accounts_of_taken _ nofun rfl)
          dsimp only [Deed.logged, Prod.map, id]
          split <;> rfl

theorem balanced_unpin (valid : tiers.Valid) (host : Host World Key Value) (key : Key) (world : World) :
    (deed host (.unpin key) tiers world).Balanced := by
  -- A pinned key is not in the soft tier, and a key that is not pinned stays where it is.
  have untaken {done : Deed Key Value} (unpins : done.operation = .unpin key) : done.taken = 0 := by
    obtain ⟨operation, before, answer, events, after⟩ := done
    obtain rfl : operation = .unpin key := unpins
    rfl
  have logged : deed host (.unpin key) tiers world =
      .logged (.unpin key) tiers ((unpin host.logging key tiers (world, [])).map .flag id) :=
    deed_eq host (.unpin key) tiers world
  cases slot : tiers.pinned.slot? key with
  | none =>
      rw [logged, unpin_of_unpinned slot]
      refine balanced_of_flows (.nothing rfl) ?_
      rw [promoted_eq_zero _ nofun, untaken rfl]
      rfl
  | some held =>
      have absent : tiers.softKeys.count key = 0 := List.count_eq_zero.mpr (valid.softAbsent_of_pinned slot)
      cases held with
      | none =>
          rw [logged, unpin_of_empty slot]
          refine balanced_of_flows (.nothing rfl) ?_
          rw [promoted_eq_zero _ nofun, untaken rfl]
          rfl
      | some value =>
          refine (enters_unpin valid slot host world).balanced ?_
          rw [promoted_eq_zero _ nofun, untaken rfl]
          exact absent.symm

/-- A value that is got and is neither pinned nor in the primary tier is promoted. -/
theorem promoted_of_get (gets : done.operation = .get key) (answered : done.answer = .value (some value))
    (unpinned : done.before.pinned.slot? key = none) (absent : done.before.primary.peek? key = none) :
    total .softPromotions done.callRecordings + done.taken = 1 := by
  obtain ⟨operation, before, answer, events, after⟩ := done
  obtain rfl : operation = .get key := gets
  obtain rfl : answer = .value (some value) := answered
  have pinned : before.isPinned key = false := by rw [isPinned_eq, unpinned]; rfl
  simp only [Deed.callRecordings, getRecordings, pinned, absent]
  rfl

theorem balanced_get (valid : tiers.Valid) (host : Host World Key Value) (key : Key) (world : World) :
    (deed host (.get key) tiers world).Balanced := by
  have logged : deed host (.get key) tiers world =
      .logged (.get key) tiers ((get host.logging key tiers (world, [])).map .value id) :=
    deed_eq host (.get key) tiers world
  cases slot : tiers.pinned.slot? key with
  | some held =>
      have pinned : tiers.isPinned key = true := by rw [isPinned_eq, slot]; rfl
      have absent := valid.softAbsent_of_pinned slot
      have count : tiers.softKeys.count key = 0 := List.count_eq_zero.mpr absent
      rw [logged, get_of_pinned slot]
      refine balanced_of_silence rfl (filter_of_absent absent).symm ?_
      cases held with
      | none => exact Nat.zero_add _
      | some value =>
          simp only [Deed.callRecordings, Deed.logged, getRecordings, pinned, ↓reduceIte]
          exact count.symm
  | none =>
      have pinned : tiers.isPinned key = false := by rw [isPinned_eq, slot]; rfl
      cases present : tiers.primary.peek? key with
      | some value =>
          have absent := valid.softAbsent_of_peek present
          have count : tiers.softKeys.count key = 0 := List.count_eq_zero.mpr absent
          rw [logged, get_of_primary slot present]
          refine balanced_of_silence rfl (filter_of_absent absent).symm ?_
          simp only [Deed.callRecordings, Deed.logged, getRecordings, pinned, present]
          exact count.symm
      | none =>
          cases live : tiers.soft.peek? (host.moment (host.record .getCall world)) key with
          | some value =>
              have answered : (deed host (.get key) tiers world).answer = .value (some value) := by
                have found : tiers.soft.peek? (host.logging.moment (host.logging.record .getCall (world, []))) key =
                    some value := live
                rw [logged, get_of_soft slot present found]
                rfl
              have stored : key ∈ tiers.softKeys := by
                rw [SoftTier.peek?_eq] at live
                obtain ⟨stamped, listed, -⟩ := Option.bind_eq_some_iff.mp live
                exact List.mem_map_of_mem (Bindings.mem_of_find? listed)
              refine (enters_get valid slot present live).balanced ?_
              rw [promoted_of_get rfl answered slot present]
              exact (List.count_eq_one_of_mem tiers.soft.keysDistinct stored).symm
          | none =>
              have dead : tiers.soft.peek? (host.logging.moment (host.logging.record .getCall (world, []))) key = none :=
                live
              rw [logged, get_of_missing slot present dead]
              exact balanced_of_silence rfl (softKeys_withoutSoft tiers key) (Nat.zero_add _)

theorem balanced_setCacheSize (valid : tiers.Valid) (host : Host World Key Value) (capacity : Nat) (world : World) :
    (deed host (.setCacheSize capacity) tiers world).Balanced := by
  have surplus := (Line.rdrop_sublist tiers.primary.toList capacity).map Prod.fst
  have apart : ∀ other ∈ (tiers.primary.toList.rdrop capacity).map Prod.fst, other ∉ tiers.softKeys :=
    fun other member => valid.primarySoft other (surplus.subset member)
  obtain ⟨events, told, flows⟩ :=
    @flows_demoteAll World Key Value _ { tiers with primary := (tiers.primary.setCapacity capacity).2 } host
      (host.logging.clock (world, [])) _ (surplus.nodup tiers.primary.keysDistinct) valid.softFits apart (world, [])
  rw [List.nil_append] at told
  rw [← told, ← setCacheSize_eq] at flows
  rw [deed_eq]
  exact balanced_of_flows ⟨flows.stored, flows.kept⟩ rfl

theorem balanced_setSoftReferenceSize (host : Host World Key Value) (capacity : Nat) (tiers : Tiers Key Value)
    (world : World) : (deed host (.setSoftReferenceSize capacity) tiers world).Balanced := by
  obtain ⟨surplus, kept⟩ := tiers.soft.setCapacity_eq capacity
  let told (entry : Key × Value) : Event Key Value := .softOverflow entry.1 entry.2
  have events : (setSoftReferenceSize host.logging capacity tiers (world, [])).2.2 =
      (tiers.soft.setCapacity capacity).1.map told := logged_setSoftReferenceSize host capacity tiers world
  have flows : Flows ((tiers.soft.setCapacity capacity).1.map told) tiers
      (setSoftReferenceSize host.logging capacity tiers (world, [])).1 := by
    constructor
    · rw [@countP_map_event Key Value _ told .softDemotions false fun _ => rfl,
        @countP_map_event Key Value _ told .softOverflows true fun _ => rfl, surplus]
      show tiers.softKeys.length + 0 = ((tiers.soft.setCapacity capacity).2.toList.map Prod.fst).length + _
      rw [kept, softKeys, if_pos rfl, List.length_map, List.length_map, List.length_map, List.length_take,
        List.length_drop]
      omega
    · exact @countP_map_event Key Value _ told .softReclaimed false (fun _ => rfl) _
  rw [← events] at flows
  rw [deed_eq]
  exact balanced_of_flows flows rfl

/-- A purge accounts for what it reclaims. -/
theorem balanced_of_purged {purged : List (Key × Value)} (purges : done.operation = .purgeSoft)
    (told : done.events = purged.map fun entry => .softReclaimed entry.1)
    (stored : done.before.softKeys.length = done.after.softKeys.length + purged.length) : done.Balanced := by
  obtain ⟨operation, before, answer, events, after⟩ := done
  obtain rfl : operation = .purgeSoft := purges
  obtain rfl : events = purged.map fun entry => .softReclaimed entry.1 := told
  let told (entry : Key × Value) : Event Key Value := .softReclaimed entry.1
  have counted (counter : Counter) :
      total counter (Deed.mk .purgeSoft before answer (purged.map told) after).recordings =
        if decide (counter = .softReclaimed) then purged.length else 0 := by
    have same : ∀ entry, (told entry).counts counter = decide (counter = .softReclaimed) := fun _ => rfl
    rw [← countP_map_event same, ← total_events]
    rfl
  rw [Deed.Balanced, counted, counted, counted, counted, storedSize_soft, storedSize_soft]
  exact stored

theorem balanced_purgeSoft (host : Host World Key Value) (tiers : Tiers Key Value) (world : World) :
    (deed host .purgeSoft tiers world).Balanced := by
  let moment := host.moment world
  obtain ⟨gone, kept⟩ := tiers.soft.purge_eq moment
  have stored : tiers.softKeys.length =
      ((tiers.soft.purge moment).2.toList.map Prod.fst).length + (tiers.soft.purge moment).1.length := by
    have split := congrArg List.length
      (List.takeWhile_append_dropWhile (p := fun entry => !tiers.soft.isLive moment entry) (l := tiers.soft.toList))
    rw [List.length_append] at split
    rw [kept, gone, softKeys, List.length_map, List.length_map, List.length_map]
    omega
  have left : (purgeSoft host.logging tiers (world, [])).2.1.softKeys =
      (tiers.soft.purge moment).2.toList.map Prod.fst := by
    rw [purgeSoft_snd]
    rfl
  rw [← left] at stored
  rw [deed_eq]
  exact balanced_of_purged rfl (logged_purgeSoft host tiers world) stored

/-- Every deed accounts for what comes to the soft tier and what leaves it. -/
theorem balanced_deed (valid : tiers.Valid) (host : Host World Key Value) (elementary : operation.elementary = true)
    (world : World) : (deed host operation tiers world).Balanced := by
  cases operation with
  | put key value => exact balanced_put valid host key value world
  | get key => exact balanced_get valid host key world
  | remove key => exact balanced_remove host key tiers world
  | pin key => exact balanced_pin valid host key world
  | unpin key => exact balanced_unpin valid host key world
  | putAll => cases elementary
  | clear =>
      rw [deed_eq, Deed.Balanced, storedSize_soft, storedSize_soft]
      exact (Nat.zero_add _).symm
  | setCacheSize capacity => exact balanced_setCacheSize valid host capacity world
  | setSoftReferenceSize capacity => exact balanced_setSoftReferenceSize host capacity tiers world
  | purgeSoft => exact balanced_purgeSoft host tiers world

/-- Along a history, the soft tier stores what has come to it and has not left it. -/
theorem Course.balanced {start : Tiers Key Value} {deeds : List (Deed Key Value)} (course : Course start deeds tiers)
    (valid : start.Valid) :
    let recordings := deeds.flatMap Deed.recordings
    start.soft.storedSize + total .softDemotions recordings =
      tiers.soft.storedSize + total .softOverflows recordings + total .softPromotions recordings +
        total .softReclaimed recordings + (deeds.map Deed.taken).sum := by
  induction course with
  | start => rfl
  | @step _ past tiers before host operation elementary world ih =>
      have balanced := balanced_deed (before.valid valid) host elementary world
      have settled : (Tiers.deed host operation tiers world).before = tiers ∧
          (Tiers.deed host operation tiers world).after = (Tiers.operate host operation tiers world).2.1 := ⟨rfl, rfl⟩
      rw [Deed.Balanced, settled.1, settled.2] at balanced
      simp only [List.flatMap_append, List.flatMap_singleton, List.map_append, List.map_singleton, List.sum_append,
        List.sum_singleton, Metrics.total_append] at ih ⊢
      omega

end Tiers

end LayeredCache
