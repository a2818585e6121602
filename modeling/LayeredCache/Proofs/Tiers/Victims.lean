import LayeredCache.Proofs.Tiers.Course
import LayeredCache.Proofs.Tiers.Departures

/-! The order in which entries leave. The bounded tiers store their keys in one line, and a deed moves at most one key to
its end: the one that it uses. Whatever the primary tier ejects comes from the front of its part of the line, and whatever
is dropped for want of room comes from the front of the whole line. -/

set_option autoImplicit false

namespace LayeredCache

variable {World Key Value Result : Type}

/-- A host that keeps every event that it is told of beside its world. -/
def Host.logging (host : Host World Key Value) : Host (World × List (Event Key Value)) Key Value where
  clock state := host.clock state.1
  epoch state := host.epoch state.1
  record recording state := (host.record recording state.1, state.2)
  notify event state := (host.notify event state.1, state.2 ++ [event])

theorem Dialogue.run_logging (host : Host World Key Value) (dialogue : Dialogue Key Value Result) (world : World)
    (log : List (Event Key Value)) :
    dialogue.run host.logging (world, log) =
      ((dialogue.run host world).1, (dialogue.run host world).2,
        log ++ (dialogue.happenings host world).map Happening.event) := by
  induction dialogue generalizing world log with
  | done result => rw [run, run, happenings, List.map_nil, List.append_nil]
  | record recording next ih => exact ih _ log
  | notify event next ih =>
      rw [happenings, List.map_cons, List.append_cons]
      exact ih _ (log ++ [event])
  | clock next ih => exact ih _ world log
  | epoch next ih => exact ih _ world log

/-- What a host that keeps events is told of items one after the other. -/
theorem Host.foldl_logging {Item : Type} {event : Item → Event Key Value}
    {step : World × List (Event Key Value) → Item → World × List (Event Key Value)}
    (each : ∀ state item, (step state item).2 = state.2 ++ [event item]) (items : List Item)
    (state : World × List (Event Key Value)) : (items.foldl step state).2 = state.2 ++ items.map event := by
  induction items generalizing state with
  | nil => exact (List.append_nil _).symm
  | cons item rest ih =>
      rw [List.foldl_cons, ih, each, List.append_assoc]
      rfl

/-- The key that the primary tier gives up with an event, whether or not it is demoted. -/
def Event.ejected? : Event Key Value → Option Key
  | .primaryOverflow key _ _ => some key
  | .softOverflow _ _ | .softReclaimed _ => none

theorem Host.logging_tells (host : Host World Key Value) :
    host.logging.Tells (fun _ => True) (fun state => state.2.filterMap Event.dropped?) id where
  keeps := Host.keeps_true _
  record _ _ _ := rfl
  demoted key value state _ := by
    show (state.2 ++ [_]).filterMap Event.dropped? = _
    rw [List.filterMap_append]
    exact List.append_nil _
  ejected key value state _ := List.filterMap_append
  displaced key value state _ := List.filterMap_append

variable [DecidableEq Key]

namespace Deed

/-- A deed with the events that a host has kept. -/
def logged (operation : Operation Key Value) (before : Tiers Key Value)
    (outcome : Answer Value × Tiers Key Value × World × List (Event Key Value)) : Deed Key Value :=
  ⟨operation, before, outcome.1, outcome.2.2.2, outcome.2.1⟩

/-- The keys that leave the cache for want of room in the course of a deed, in order. -/
def dropped (done : Deed Key Value) : List Key := (done.events.filterMap Event.dropped?).map Prod.fst

/-- The keys that the primary tier ejects in the course of a deed, in order. -/
def ejected (done : Deed Key Value) : List Key := done.events.filterMap Event.ejected?

/-- Whether anything is ejected or dropped for want of room in the course of a deed. -/
def Overflows (done : Deed Key Value) : Prop := done.dropped ≠ [] ∨ done.ejected ≠ []

/-- The key that a deed uses among those that are not pinned: one that is put, or found by a get, or unpinned with a
value. -/
def used? (done : Deed Key Value) : Option Key :=
  match done.operation, done.answer with
  | .put key _, _ | .get key, .value (some _) => if done.before.isPinned key then none else some key
  | .unpin key, _ => if (done.before.pinned.slot? key).join.isSome then some key else none
  | _, _ => none

/-- The key that a deed makes the newest: the one that it uses, which in the order of insertion must not be in the primary
tier already. -/
def renewed? (done : Deed Key Value) : Option Key :=
  done.used?.filter fun key => done.before.primary.order.isLru || (done.before.primary.peek? key).isNone

end Deed

/-- A line of keys once one of them is made the newest. -/
def renew (used : Option Key) (line : List Key) : List Key :=
  match used with
  | none => line
  | some key => line.filter (fun other => other ≠ key) ++ [key]

theorem keys_erase (key : Key) (bindings : List (Key × Value)) :
    (Bindings.erase key bindings).map Prod.fst = (bindings.map Prod.fst).filter fun other => other ≠ key := by
  rw [Bindings.erase, List.filter_map]
  rfl

theorem filter_of_absent {key : Key} {line : List Key} (absent : key ∉ line) :
    (line.filter fun other => other ≠ key) = line := by
  refine List.filter_eq_self.mpr ?_
  intro other listed
  exact decide_eq_true fun same => absent (same ▸ listed)

namespace Tiers

/-- The keys of both bounded tiers, the next to leave the cache first. -/
def lineKeys (tiers : Tiers Key Value) : List Key := tiers.softKeys ++ tiers.primaryKeys

theorem keys_line (tiers : Tiers Key Value) : tiers.line.map Prod.fst = tiers.lineKeys := by
  rw [line, List.map_append, keys_unstamped]
  rfl

/-- A deed takes keys from the front of the line only, with the key that it uses at the end. What it tells of is what leaves
in front, and where it tells of anything, everything else stays. -/
structure InOrder (done : Deed Key Value) : Prop where
  dropped : ∃ kept, renew done.renewed? done.before.lineKeys = done.dropped ++ kept ∧ done.after.lineKeys.Sublist kept
  ejected : ∃ kept, renew done.renewed? done.before.primaryKeys = done.ejected ++ kept ∧
    done.after.primaryKeys.Sublist kept
  rest : done.Overflows →
    renew done.renewed? done.before.lineKeys = done.dropped ++ done.after.lineKeys ∧
      renew done.renewed? done.before.primaryKeys = done.ejected ++ done.after.primaryKeys

variable {host : Host World Key Value} {operation : Operation Key Value} {tiers entered after : Tiers Key Value}
  {key : Key} {value : Value} {world : World} {done : Deed Key Value}

/-- A deed as it comes out before a host that keeps the events. -/
theorem deed_eq (host : Host World Key Value) (operation : Operation Key Value) (tiers : Tiers Key Value)
    (world : World) :
    deed host operation tiers world = .logged operation tiers (operate host.logging operation tiers (world, [])) := by
  rw [deed, ← perform_dialogue, ← perform_dialogue, Dialogue.perform, Dialogue.perform, Dialogue.run_logging]
  rfl

/-- A deed that takes nothing but what it tells of. -/
theorem inOrder_of_whole (line : renew done.renewed? done.before.lineKeys = done.dropped ++ done.after.lineKeys)
    (primary : renew done.renewed? done.before.primaryKeys = done.ejected ++ done.after.primaryKeys) : InOrder done where
  dropped := ⟨_, line, .refl _⟩
  ejected := ⟨_, primary, .refl _⟩
  rest _ := ⟨line, primary⟩

/-- A deed that only takes keys away, in silence. -/
theorem inOrder_of_narrow (unused : done.renewed? = none) (silent : done.events.filterMap Event.dropped? = [])
    (kept : done.ejected = []) (soft : done.after.softKeys.Sublist done.before.softKeys)
    (primary : done.after.primaryKeys.Sublist done.before.primaryKeys) : InOrder done := by
  have dropped : done.dropped = [] := by
    rw [Deed.dropped, silent]
    rfl
  constructor
  · rw [unused, dropped]
    exact ⟨_, rfl, soft.append primary⟩
  · rw [unused, kept]
    exact ⟨_, rfl, primary⟩
  · rintro (some | some)
    · exact absurd dropped some
    · exact absurd kept some

/-- A deed that renews a key in its place in silence, if the order is that of use. -/
theorem inOrder_of_renewed (silent : done.events = []) {inUse : Bool}
    (renewed : done.renewed? = if inUse then some key else none)
    (soft : done.after.softKeys = done.before.softKeys.filter fun other => other ≠ key)
    (primary : done.after.primaryKeys = if inUse then renew (some key) done.before.primaryKeys
      else done.before.primaryKeys) : InOrder done := by
  have dropped : done.dropped = [] := by
    rw [Deed.dropped, silent]
    rfl
  have ejected : done.ejected = [] := by
    rw [Deed.ejected, silent]
    rfl
  cases inUse with
  | true =>
      rw [if_pos rfl] at renewed primary
      apply inOrder_of_whole
      · rw [dropped, List.nil_append, renewed, lineKeys, lineKeys, soft, primary, renew, renew, List.filter_append,
          List.append_assoc]
      · rw [ejected, List.nil_append, renewed, primary]
  | false =>
      rw [if_neg Bool.false_ne_true] at renewed primary
      refine inOrder_of_narrow renewed (by rw [silent]; rfl) ejected ?_ (by rw [primary])
      rw [soft]
      exact List.filter_sublist

theorem ejected_demote (host : Host World Key Value) (instant : Instant) (entry : Key × Value) (tiers : Tiers Key Value)
    (state : World × List (Event Key Value)) :
    (demote host.logging instant entry tiers state).2.2.filterMap Event.ejected? =
      state.2.filterMap Event.ejected? ++ [entry.1] := by
  have told (demoted : Bool) : (overflowTold host.logging demoted entry state).2.filterMap Event.ejected? =
      state.2.filterMap Event.ejected? ++ [entry.1] := List.filterMap_append
  by_cases disabled : tiers.soft.capacity = 0
  · rw [demote_disabled disabled]
    exact told false
  · rw [demote_enabled (Nat.pos_of_ne_zero disabled)]
    dsimp only
    cases (tiers.soft.accept _ entry.1 entry.2).1 with
    | none => exact told true
    | some dropped =>
        show ((overflowTold host.logging true entry state).2 ++ [_]).filterMap Event.ejected? = _
        rw [List.filterMap_append, told true]
        exact List.append_nil _

theorem ejected_demoteAll (host : Host World Key Value) (instant : Instant) (entries : List (Key × Value))
    (tiers : Tiers Key Value) (state : World × List (Event Key Value)) :
    (demoteAll host.logging instant entries tiers state).2.2.filterMap Event.ejected? =
      state.2.filterMap Event.ejected? ++ entries.map Prod.fst := by
  induction entries generalizing tiers state with
  | nil => exact (List.append_nil _).symm
  | cons entry rest ih =>
      rw [demoteAll]
      dsimp only
      rw [ih, ejected_demote, List.append_assoc]
      rfl

/-- A deed that puts the key that it uses into the primary tier, once it is gone from the soft tier. -/
structure Enters (host : Host World Key Value) (entered : Tiers Key Value) (key : Key) (done : Deed Key Value) :
    Prop where
  valid : entered.Valid
  primary : entered.primary = done.before.primary
  soft : entered.softKeys = done.before.softKeys.filter fun other => other ≠ key
  used : done.used? = some key
  inserted : ∃ (instant : Instant) (value : Value) (start : World),
    let inserted := insertPrimary host.logging instant key value entered (start, [])
    done.events = inserted.2.2.2 ∧ done.after = inserted.2.1

namespace Enters

theorem softAbsent (enters : Enters host entered key done) : key ∉ entered.softKeys := by
  rw [enters.soft]
  exact fun listed => of_decide_eq_true (List.mem_filter.mp listed).2 rfl

theorem primaryKeys (enters : Enters host entered key done) : entered.primaryKeys = done.before.primaryKeys := by
  rw [Tiers.primaryKeys, enters.primary]
  rfl

theorem renewed (enters : Enters host entered key done) :
    done.renewed? =
      if entered.primary.order.isLru || (Bindings.find? key entered.primary.toList).isNone then some key else none := by
  rw [Deed.renewed?, enters.used, Option.filter_some, ← PrimaryTier.peek?_eq, enters.primary]

/-- A key that is new to the primary tier is made the newest, and whatever there is no room for leaves from the front. -/
theorem inOrder_new (enters : Enters host entered key done) (absent : Bindings.find? key entered.primary.toList = none) :
    InOrder done := by
  obtain ⟨instant, value, start, events, left⟩ := enters.inserted
  have valid := enters.valid
  have renewed := enters.renewed
  rw [absent, Option.isNone_none, Bool.or_true, if_pos rfl] at renewed
  have apart : key ∉ done.before.primaryKeys := by
    rw [← enters.primaryKeys]
    exact Bindings.find?_eq_none_iff.mp absent
  let room := entered.primary.capacity + entered.soft.capacity
  let line := entered.line ++ [(key, value)]
  let primaryLine := entered.primary.toList ++ [(key, value)]
  have keys : line.map Prod.fst = renew (some key) done.before.lineKeys := by
    rw [List.map_append, keys_line, lineKeys, enters.soft, enters.primaryKeys, renew, lineKeys, List.filter_append,
      filter_of_absent apart]
    rfl
  have primaryKeys : primaryLine.map Prod.fst = renew (some key) done.before.primaryKeys := by
    rw [List.map_append, renew, filter_of_absent apart, ← enters.primaryKeys]
    rfl
  have settles := valid.settles_insertPrimary host.logging.keeps_true instant value (start, []) trivial absent
    enters.softAbsent
  have told := @insertPrimary_told _ _ _ _ _ _ _ _ _ _ (start, []) _ host.logging_tells trivial valid instant value
    absent enters.softAbsent
  have dropped : done.dropped = (line.rdrop room).map Prod.fst := by
    rw [Deed.dropped, events, told, List.map_id]
    rfl
  have ejected : done.ejected = (primaryLine.rdrop entered.primary.capacity).map Prod.fst := by
    rw [Deed.ejected, events, insertPrimary_absent valid.primaryFits absent, ejected_demoteAll]
    rfl
  have kept : done.after.lineKeys = (line.rtake room).map Prod.fst := by
    rw [← keys_line, left, settles.line valid.softFits, ← List.append_assoc]
    rfl
  have primaryKept : done.after.primaryKeys = (primaryLine.rtake entered.primary.capacity).map Prod.fst := by
    rw [left, Tiers.primaryKeys, settles.primary]
  apply inOrder_of_whole
  · rw [renewed, ← keys, dropped, kept, ← List.map_append, Line.rdrop_append_rtake]
  · rw [renewed, ← primaryKeys, ejected, primaryKept, ← List.map_append, Line.rdrop_append_rtake]

/-- A key that is in the primary tier already is renewed in the order of use, and stays where it is otherwise. -/
theorem inOrder_present (enters : Enters host entered key done) {old : Value}
    (present : Bindings.find? key entered.primary.toList = some old) : InOrder done := by
  obtain ⟨instant, value, start, events, left⟩ := enters.inserted
  obtain ⟨-, inserted⟩ := PrimaryTier.insert_present present value
  rw [insertPrimary_present present] at events left
  have renewed := enters.renewed
  rw [present, Option.isNone_some, Bool.or_false] at renewed
  refine inOrder_of_renewed events renewed ?_ ?_
  · rw [left, ← enters.soft]
    rfl
  · have stored : done.after.primaryKeys = (entered.primary.insert key value).2.toList.map Prod.fst := by
      rw [left]
      rfl
    rw [stored, inserted, ← enters.primaryKeys]
    split
    · rw [List.map_append, keys_erase]
      rfl
    · rw [Bindings.keys_reassign]
      rfl

theorem inOrder (enters : Enters host entered key done) : InOrder done := by
  cases found : Bindings.find? key entered.primary.toList with
  | none => exact enters.inOrder_new found
  | some old => exact enters.inOrder_present found

end Enters

theorem softKeys_withoutSoft (tiers : Tiers Key Value) (key : Key) :
    (tiers.withoutSoft key).softKeys = tiers.softKeys.filter fun other => other ≠ key := by
  rw [softKeys, toList_withoutSoft, keys_erase]
  rfl

/-- A put of a key that is not pinned. -/
theorem enters_put (valid : tiers.Valid) (slot : tiers.pinned.slot? key = none) (host : Host World Key Value)
    (value : Value) (world : World) :
    Enters host (tiers.withoutSoft key) key (deed host (.put key value) tiers world) := by
  rw [deed_eq]
  show Enters host _ key (.logged _ tiers ((put host.logging key value tiers (world, [])).map .value id))
  rw [put_of_unpinned slot]
  refine ⟨valid.withoutSoft key, rfl, softKeys_withoutSoft tiers key, ?_, _, value, host.record .putCall world, rfl, rfl⟩
  simp only [Deed.used?, Deed.logged, isPinned_eq, slot, Option.isSome_none, Bool.false_eq_true, ↓reduceIte]

/-- A get that finds its key in the soft tier. -/
theorem enters_get (valid : tiers.Valid) (slot : tiers.pinned.slot? key = none)
    (absent : tiers.primary.peek? key = none) {host : Host World Key Value} {world : World}
    (live : tiers.soft.peek? (host.moment (host.record .getCall world)) key = some value) :
    Enters host (tiers.withoutSoft key) key (deed host (.get key) tiers world) := by
  rw [deed_eq]
  show Enters host _ key (.logged _ tiers ((get host.logging key tiers (world, [])).map .value id))
  have found : tiers.soft.peek? (host.logging.moment (host.logging.record .getCall (world, []))) key = some value := live
  rw [get_of_soft slot absent found]
  refine ⟨valid.withoutSoft key, rfl, softKeys_withoutSoft tiers key, ?_, _, value, _, rfl, rfl⟩
  simp only [Deed.used?, Deed.logged, Prod.map, isPinned_eq, slot, Option.isSome_none, Bool.false_eq_true, ↓reduceIte]

/-- An unpin of a key that has a value. -/
theorem enters_unpin (valid : tiers.Valid) (slot : tiers.pinned.slot? key = some (some value))
    (host : Host World Key Value) (world : World) :
    Enters host { tiers with pinned := (tiers.pinned.unpin key).2 } key (deed host (.unpin key) tiers world) := by
  rw [deed_eq]
  show Enters host _ key (.logged _ tiers ((unpin host.logging key tiers (world, [])).map .flag id))
  rw [unpin_of_valued slot]
  refine ⟨valid.unpinned key, rfl, (filter_of_absent (valid.softAbsent_of_pinned slot)).symm, ?_, _, value,
    host.record .unpinCall world, rfl, rfl⟩
  simp only [Deed.used?, Deed.logged, slot, Option.join_some, Option.isSome_some, ↓reduceIte]

theorem inOrder_put (valid : tiers.Valid) (host : Host World Key Value) (key : Key) (value : Value) (world : World) :
    InOrder (deed host (.put key value) tiers world) := by
  cases slot : tiers.pinned.slot? key with
  | none => exact (enters_put valid slot host value world).inOrder
  | some held =>
      rw [deed_eq]
      show InOrder (.logged _ tiers ((put host.logging key value tiers (world, [])).map .value id))
      rw [put_of_pinned slot]
      refine inOrder_of_narrow ?_ rfl rfl (.refl _) (.refl _)
      simp only [Deed.renewed?, Deed.used?, Deed.logged, isPinned_eq, slot, Option.isSome_some, ↓reduceIte,
        Option.filter_none]

theorem inOrder_get (valid : tiers.Valid) (host : Host World Key Value) (key : Key) (world : World) :
    InOrder (deed host (.get key) tiers world) := by
  have logged : deed host (.get key) tiers world =
      .logged (.get key) tiers ((get host.logging key tiers (world, [])).map .value id) :=
    deed_eq host (.get key) tiers world
  cases slot : tiers.pinned.slot? key with
  | some held =>
      rw [logged, get_of_pinned slot]
      refine inOrder_of_narrow ?_ rfl rfl (.refl _) (.refl _)
      cases held with
      | none => rfl
      | some value =>
          simp only [Deed.renewed?, Deed.used?, Deed.logged, Prod.map, isPinned_eq, slot, Option.isSome_some, ↓reduceIte,
            Option.filter_none]
  | none =>
      cases present : tiers.primary.peek? key with
      | some value =>
          rw [logged, get_of_primary slot present]
          refine @inOrder_of_renewed Key Value _ key _ rfl tiers.primary.order.isLru ?_ ?_ ?_
          · simp only [Deed.renewed?, Deed.used?, Deed.logged, Prod.map, isPinned_eq, slot, Option.isSome_none,
              Bool.false_eq_true, ↓reduceIte, Option.filter_some, present, Option.isNone_some, Bool.or_false]
          · exact (filter_of_absent (valid.softAbsent_of_peek present)).symm
          · show (tiers.primary.touch key).toList.map Prod.fst = _
            rw [PrimaryTier.peek?_eq] at present
            rw [PrimaryTier.toList_touch, Bindings.moveToBack_of_present present]
            split
            · rw [List.map_append, keys_erase]
              rfl
            · rfl
      | none =>
          cases live : tiers.soft.peek? (host.moment (host.record .getCall world)) key with
          | some value => exact (enters_get valid slot present live).inOrder
          | none =>
              have dead : tiers.soft.peek? (host.logging.moment (host.logging.record .getCall (world, []))) key = none :=
                live
              rw [logged, get_of_missing slot present dead]
              refine inOrder_of_narrow rfl rfl rfl ?_ (.refl _)
              rw [Deed.logged]
              dsimp only [Prod.map]
              rw [id, softKeys_withoutSoft]
              exact List.filter_sublist

theorem inOrder_pin (host : Host World Key Value) (key : Key) (tiers : Tiers Key Value) (world : World) :
    InOrder (deed host (.pin key) tiers world) := by
  have unused (outcome : Answer Value × Tiers Key Value × World × List (Event Key Value)) :
      (Deed.logged (.pin key) tiers outcome).renewed? = none := rfl
  rw [deed_eq]
  show InOrder (.logged _ tiers ((pin host.logging key tiers (world, [])).map .flag id))
  cases slot : tiers.pinned.slot? key with
  | some held =>
      rw [pin_of_pinned slot]
      refine inOrder_of_narrow (unused _) ?_ ?_ (.refl _) (.refl _)
      · cases held <;> rfl
      · cases held <;> rfl
  | none =>
      cases present : tiers.primary.peek? key with
      | some value =>
          rw [pin_of_primary slot present]
          refine inOrder_of_narrow (unused _) rfl rfl (.refl _) ?_
          show ((tiers.primary.remove key).2.toList.map Prod.fst).Sublist _
          rw [(tiers.primary.remove_eq key).2]
          exact (Bindings.erase_sublist key _).map Prod.fst
      | none =>
          rw [pin_of_absent slot present]
          refine inOrder_of_narrow (unused _) ?_ ?_ ?_ (.refl _)
          · dsimp only [Deed.logged, Prod.map, id]
            split <;> rfl
          · dsimp only [Deed.ejected, Deed.logged, Prod.map, id]
            split <;> rfl
          · show (tiers.withoutSoft key).softKeys.Sublist _
            rw [softKeys_withoutSoft]
            exact List.filter_sublist

theorem inOrder_unpin (valid : tiers.Valid) (host : Host World Key Value) (key : Key) (world : World) :
    InOrder (deed host (.unpin key) tiers world) := by
  have logged : deed host (.unpin key) tiers world =
      .logged (.unpin key) tiers ((unpin host.logging key tiers (world, [])).map .flag id) :=
    deed_eq host (.unpin key) tiers world
  cases slot : tiers.pinned.slot? key with
  | none =>
      rw [logged, unpin_of_unpinned slot]
      refine inOrder_of_narrow ?_ rfl rfl (.refl _) (.refl _)
      simp only [Deed.renewed?, Deed.used?, Deed.logged, slot, Option.join_none, Option.isSome_none, Bool.false_eq_true,
        ↓reduceIte, Option.filter_none]
  | some held =>
      cases held with
      | none =>
          rw [logged, unpin_of_empty slot]
          refine inOrder_of_narrow ?_ rfl rfl (.refl _) (.refl _)
          simp only [Deed.renewed?, Deed.used?, Deed.logged, slot, Option.join_some, Option.isSome_none,
            Bool.false_eq_true, ↓reduceIte, Option.filter_none]
      | some value => exact (enters_unpin valid slot host world).inOrder

theorem inOrder_setCacheSize (valid : tiers.Valid) (host : Host World Key Value) (capacity : Nat) (world : World) :
    InOrder (deed host (.setCacheSize capacity) tiers world) := by
  rw [deed_eq]
  let room := capacity + tiers.soft.capacity
  let resized := setCacheSize host.logging capacity tiers (world, [])
  have settles := valid.settles_setCacheSize host.logging.keeps_true capacity (world, []) trivial
  have told := @setCacheSize_told _ _ _ _ _ _ _ _ _ _ (world, []) host.logging_tells trivial valid capacity
  have ejected : resized.2.2.filterMap Event.ejected? = (tiers.primary.toList.rdrop capacity).map Prod.fst := by
    show (setCacheSize host.logging capacity tiers (world, [])).2.2.filterMap _ = _
    rw [setCacheSize_eq, ejected_demoteAll]
    rfl
  have kept : resized.1.lineKeys = (tiers.line.rtake room).map Prod.fst := by
    rw [← keys_line, settles.line valid.softFits]
    rfl
  apply inOrder_of_whole
  · show tiers.lineKeys = (resized.2.2.filterMap Event.dropped?).map Prod.fst ++ resized.1.lineKeys
    rw [told, List.map_id, kept, ← keys_line]
    show _ = (tiers.line.rdrop room).map Prod.fst ++ _
    rw [← List.map_append, Line.rdrop_append_rtake]
  · show tiers.primaryKeys = resized.2.2.filterMap Event.ejected? ++ resized.1.primaryKeys
    rw [ejected, primaryKeys, primaryKeys, settles.primary, ← List.map_append, Line.rdrop_append_rtake]

/-- What is told when the soft tier is given less room. -/
theorem logged_setSoftReferenceSize (host : Host World Key Value) (capacity : Nat) (tiers : Tiers Key Value)
    (world : World) :
    (setSoftReferenceSize host.logging capacity tiers (world, [])).2.2 =
      (tiers.soft.setCapacity capacity).1.map fun entry => Event.softOverflow entry.1 entry.2 := by
  rw [setSoftReferenceSize]
  exact Host.foldl_logging (fun state entry => rfl) _ _

/-- What is told of a purge. -/
theorem logged_purgeSoft (host : Host World Key Value) (tiers : Tiers Key Value) (world : World) :
    (purgeSoft host.logging tiers (world, [])).2.2.2 =
      (tiers.soft.purge (host.moment world)).1.map fun entry => Event.softReclaimed entry.1 := by
  rw [purgeSoft]
  dsimp only
  split
  next nothing => exact (congrArg (List.map _) (List.isEmpty_iff.mp nothing)).symm
  next => exact Host.foldl_logging (fun state entry => rfl) _ _

theorem inOrder_setSoftReferenceSize (host : Host World Key Value) (capacity : Nat) (tiers : Tiers Key Value)
    (world : World) : InOrder (deed host (.setSoftReferenceSize capacity) tiers world) := by
  rw [deed_eq]
  obtain ⟨surplus, left⟩ := tiers.soft.setCapacity_eq capacity
  have kept : (tiers.soft.setCapacity capacity).2.toList = tiers.soft.toList.rtake capacity := by
    rw [left]
    rfl
  let told (entry : Key × Value) : Event Key Value := .softOverflow entry.1 entry.2
  have events : (setSoftReferenceSize host.logging capacity tiers (world, [])).2.2 =
      ((tiers.soft.setCapacity capacity).1.map told) := logged_setSoftReferenceSize host capacity tiers world
  have dropped : ((tiers.soft.setCapacity capacity).1.map told).filterMap Event.dropped? =
      (tiers.soft.toList.rdrop capacity).map Stamped.unstamped := by
    rw [List.filterMap_map, surplus]
    exact List.filterMap_some
  have ejected : ((tiers.soft.setCapacity capacity).1.map told).filterMap Event.ejected? = [] := by
    rw [List.filterMap_map]
    exact List.filterMap_eq_nil_iff.mpr fun _ _ => rfl
  apply inOrder_of_whole
  · show tiers.lineKeys =
      ((setSoftReferenceSize host.logging capacity tiers (world, [])).2.2.filterMap Event.dropped?).map Prod.fst ++
        ((tiers.soft.setCapacity capacity).2.toList.map Prod.fst ++ tiers.primaryKeys)
    rw [events, dropped, kept, keys_unstamped, ← List.append_assoc, ← List.map_append, Line.rdrop_append_rtake]
    rfl
  · show tiers.primaryKeys =
      (setSoftReferenceSize host.logging capacity tiers (world, [])).2.2.filterMap Event.ejected? ++ tiers.primaryKeys
    rw [events, ejected, List.nil_append]

theorem inOrder_purgeSoft (host : Host World Key Value) (tiers : Tiers Key Value) (world : World) :
    InOrder (deed host .purgeSoft tiers world) := by
  rw [deed_eq]
  let purged := purgeSoft host.logging tiers (world, [])
  have events : purged.2.2.2 = (tiers.soft.purge (host.moment world)).1.map fun entry => Event.softReclaimed entry.1 :=
    logged_purgeSoft host tiers world
  refine inOrder_of_narrow rfl ?_ ?_ ?_ ?_
  · show purged.2.2.2.filterMap Event.dropped? = []
    rw [events, List.filterMap_map]
    exact List.filterMap_eq_nil_iff.mpr fun _ _ => rfl
  · show purged.2.2.2.filterMap Event.ejected? = []
    rw [events, List.filterMap_map]
    exact List.filterMap_eq_nil_iff.mpr fun _ _ => rfl
  · show (purgeSoft host.logging tiers (world, [])).2.1.softKeys.Sublist _
    rw [purgeSoft_snd, softKeys, (tiers.soft.purge_eq _).2]
    exact (List.dropWhile_sublist _).map Prod.fst
  · show (purgeSoft host.logging tiers (world, [])).2.1.primaryKeys.Sublist _
    rw [purgeSoft_snd]
    exact .refl _

/-- Every deed is in order. -/
theorem inOrder_deed (valid : tiers.Valid) (host : Host World Key Value) (elementary : operation.elementary = true)
    (world : World) : InOrder (deed host operation tiers world) := by
  cases operation with
  | put key value => exact inOrder_put valid host key value world
  | get key => exact inOrder_get valid host key world
  | remove key =>
      rw [deed_eq]
      show InOrder (.logged _ tiers ((remove host.logging key tiers (world, [])).map .value id))
      rw [remove_eq]
      refine inOrder_of_narrow rfl ?_ ?_ ?_ ?_
      · dsimp only [Deed.logged, Prod.map, id]
        split <;> rfl
      · dsimp only [Deed.ejected, Deed.logged, Prod.map, id]
        split <;> rfl
      · show (tiers.withoutSoft key).softKeys.Sublist _
        rw [softKeys_withoutSoft]
        exact List.filter_sublist
      · show ((tiers.primary.remove key).2.toList.map Prod.fst).Sublist _
        rw [(tiers.primary.remove_eq key).2]
        exact (Bindings.erase_sublist key _).map Prod.fst
  | pin key => exact inOrder_pin host key tiers world
  | unpin key => exact inOrder_unpin valid host key world
  | putAll => cases elementary
  | clear =>
      rw [deed_eq]
      exact inOrder_of_narrow rfl rfl rfl (List.nil_sublist _) (List.nil_sublist _)
  | setCacheSize capacity => exact inOrder_setCacheSize valid host capacity world
  | setSoftReferenceSize capacity => exact inOrder_setSoftReferenceSize host capacity tiers world
  | purgeSoft => exact inOrder_purgeSoft host tiers world

end Tiers

end LayeredCache
