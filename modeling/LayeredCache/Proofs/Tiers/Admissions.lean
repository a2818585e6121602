import LayeredCache.Proofs.Tiers.Cascade
import LayeredCache.Proofs.Tiers.Victims

/-! What an operation hands over to the soft tier. Each entry that is demoted is accepted with the instant at which the
operation began and the epoch that its callback left, and is there in the end unless the operation displaces it again; and
whatever else was in the soft tier stays there unless it is displaced or its own key is used. -/

set_option autoImplicit false

namespace LayeredCache

variable {World Key Value Result : Type}

/-- A host that keeps what happens before it beside its world. -/
def Host.noting (host : Host World Key Value) : Host (World × List (Happening World Key Value)) Key Value where
  clock state := host.clock state.1
  epoch state := host.epoch state.1
  record recording state := (host.record recording state.1, state.2)
  notify event state :=
    let after := host.notify event state.1
    (after, state.2 ++ [⟨event, state.1, after⟩])

theorem Dialogue.run_noting (host : Host World Key Value) (dialogue : Dialogue Key Value Result) (world : World)
    (notes : List (Happening World Key Value)) :
    dialogue.run host.noting (world, notes) =
      ((dialogue.run host world).1, (dialogue.run host world).2, notes ++ dialogue.happenings host world) := by
  induction dialogue generalizing world notes with
  | done result => rw [run, run, happenings, List.append_nil]
  | record recording next ih => exact ih _ notes
  | notify event next ih =>
      rw [happenings, List.append_cons]
      exact ih _ (notes ++ [_])
  | clock next ih => exact ih _ world notes
  | epoch next ih => exact ih _ world notes

/-- No event tells that a key was displaced from the soft tier. -/
def Undisplaced (key : Key) (events : List (Event Key Value)) : Prop :=
  ∀ value, Event.softOverflow key value ∉ events

theorem Undisplaced.subset {key : Key} {events fewer : List (Event Key Value)} (undisplaced : Undisplaced key events)
    (included : fewer ⊆ events) : Undisplaced key fewer :=
  fun value told => undisplaced value (included told)

/-- An operation that may take an entry of a key out of the soft tier, or write another in its place. -/
def Operation.disturbs [DecidableEq Key] (key : Key) : Operation Key Value → Bool
  | .put other _ | .get other | .remove other | .pin other => other = key
  | .putAll _ _ | .clear => true
  | .unpin _ | .setCacheSize _ | .setSoftReferenceSize _ | .purgeSoft => false

/-- The instant that an operation reads at its start, once its call is counted. -/
def Operation.reading (operation : Operation Key Value) (host : Host World Key Value) (world : World) : Instant :=
  match operation with
  | .put _ _ => host.clock (host.record .putCall world)
  | .get _ => host.clock (host.record .getCall world)
  | .unpin _ => host.clock (host.record .unpinCall world)
  | _ => host.clock world

variable [DecidableEq Key]

/-- From one soft tier to the next, entries have been accepted at an instant, each in the epoch that the callback of its
event left, and others displaced, as some happenings tell. -/
structure HandsOver (host : Host World Key Value) (instant : Instant) (before after : SoftTier Key Value)
    (added : List (Happening World Key Value)) : Prop where
  admitted : ∀ happening ∈ added, ∀ {key value}, happening.event = .primaryOverflow key value true →
    Undisplaced key (added.map Happening.event) → (key, ⟨value, instant, host.epoch happening.after⟩) ∈ after.toList
  retained : ∀ entry ∈ before.toList, Undisplaced entry.1 (added.map Happening.event) → entry ∈ after.toList

variable {host : Host World Key Value} {instant : Instant} {first second third : SoftTier Key Value}
  {added more : List (Happening World Key Value)}

namespace HandsOver

/-- Nothing happens. -/
theorem quiet (host : Host World Key Value) (instant : Instant) (same : second.toList = first.toList) :
    HandsOver host instant first second [] where
  admitted := nofun
  retained _ member _ := same ▸ member

theorem trans (start : HandsOver host instant first second added) (rest : HandsOver host instant second third more) :
    HandsOver host instant first third (added ++ more) := by
  have split {key : Key} (undisplaced : Undisplaced key ((added ++ more).map Happening.event)) :
      Undisplaced key (added.map Happening.event) ∧ Undisplaced key (more.map Happening.event) := by
    rw [List.map_append] at undisplaced
    exact ⟨undisplaced.subset (List.subset_append_left _ _), undisplaced.subset (List.subset_append_right _ _)⟩
  constructor
  · intro happening happened key value told undisplaced
    obtain ⟨early, late⟩ := split undisplaced
    rcases List.mem_append.mp happened with earlier | later
    · exact rest.retained _ (start.admitted happening earlier told early) late
    · exact rest.admitted happening later told late
  · intro entry member undisplaced
    obtain ⟨early, late⟩ := split undisplaced
    exact rest.retained entry (start.retained entry member early) late

end HandsOver

namespace Tiers

variable {tiers : Tiers Key Value} {key : Key} {world : World} {operation : Operation Key Value}

theorem operate_noting (host : Host World Key Value) (operation : Operation Key Value) (tiers : Tiers Key Value)
    (world : World) :
    operate host.noting operation tiers (world, []) =
      ((operate host operation tiers world).1, (operate host operation tiers world).2.1,
        (operate host operation tiers world).2.2, (dialogue operation tiers).happenings host world) := by
  rw [← perform_dialogue, ← perform_dialogue, Dialogue.perform, Dialogue.perform, Dialogue.run_noting, List.nil_append]

theorem told_eq (host : Host World Key Value) (operation : Operation Key Value) (tiers : Tiers Key Value)
    (world : World) :
    ((dialogue operation tiers).happenings host world).map Happening.event =
      (operate host.logging operation tiers (world, [])).2.2.2 :=
  congrArg Deed.events (deed_eq host operation tiers world)

/-- A demoted entry goes to the end of the soft tier, and at most the first one leaves, which is told. -/
theorem handsOver_demote (fits : tiers.soft.toList.length ≤ tiers.soft.capacity) {entry : Key × Value}
    (absent : entry.1 ∉ tiers.soft.toList.map Prod.fst) (host : Host World Key Value) (instant : Instant)
    (state : World × List (Happening World Key Value)) :
    ∃ added, (demote host.noting instant entry tiers state).2.2 = state.2 ++ added ∧
      HandsOver host instant tiers.soft (demote host.noting instant entry tiers state).1.soft added := by
  by_cases disabled : tiers.soft.capacity = 0
  · rw [demote_disabled disabled]
    refine ⟨_, rfl, ?_, fun _ member _ => member⟩
    intro happening happened key value told
    obtain rfl := List.mem_singleton.mp happened
    cases told
  · have enabled := Nat.pos_of_ne_zero disabled
    let told := overflowTold host.noting true entry state
    let overflow : Happening World Key Value :=
      ⟨.primaryOverflow entry.1 entry.2 true, host.record (.primaryOverflow true) state.1, told.1⟩
    let accepted : Key × Stamped Value := (entry.1, ⟨entry.2, instant, host.epoch told.1⟩)
    rw [demote_enabled enabled]
    dsimp only
    have isFirst : ∀ happening : Happening World Key Value, happening = overflow → ∀ {key value},
        happening.event = .primaryOverflow key value true →
          (key, Stamped.mk value ⟨instant, host.epoch happening.after⟩) = accepted := by
      rintro happening rfl key value same
      obtain ⟨rfl, rfl, -⟩ := Event.primaryOverflow.inj same
      rfl
    rcases SoftTier.accept_new fits absent enabled ⟨instant, host.noting.epoch told⟩ entry.2 with
      ⟨-, nothing, line⟩ | ⟨oldest, rest, -, stored, dropped, line⟩
    · rw [nothing]
      refine ⟨[overflow], rfl, ?_, ?_⟩
      · intro happening happened key value same _
        rw [isFirst happening (List.mem_singleton.mp happened) same, line]
        exact List.mem_append_right _ (List.mem_singleton.mpr rfl)
      · intro other member _
        rw [line]
        exact List.mem_append_left _ member
    · rw [dropped]
      let leaving := Event.softOverflow oldest.1 oldest.2.value
      let displaced : Happening World Key Value :=
        ⟨leaving, host.record .softOverflow told.1, host.notify leaving (host.record .softOverflow told.1)⟩
      refine ⟨[overflow, displaced], List.append_assoc _ _ _, ?_, ?_⟩
      · intro happening happened key value same _
        rcases List.mem_cons.mp happened with first | last
        · rw [isFirst happening first same, line]
          exact List.mem_append_right _ (List.mem_singleton.mpr rfl)
        · obtain rfl := List.mem_singleton.mp last
          cases same
      · intro other member undisplaced
        rw [line]
        rw [stored] at member
        rcases List.mem_cons.mp member with rfl | kept
        · exact absurd (List.mem_cons_of_mem _ List.mem_cons_self) (undisplaced other.2.value)
        · exact List.mem_append_left _ kept

theorem handsOver_demoteAll {entries : List (Key × Value)} (distinct : (entries.map Prod.fst).Nodup)
    (fits : tiers.soft.toList.length ≤ tiers.soft.capacity)
    (apart : ∀ key ∈ entries.map Prod.fst, key ∉ tiers.soft.toList.map Prod.fst) (host : Host World Key Value)
    (instant : Instant) (state : World × List (Happening World Key Value)) :
    ∃ added, (demoteAll host.noting instant entries tiers state).2.2 = state.2 ++ added ∧
      HandsOver host instant tiers.soft (demoteAll host.noting instant entries tiers state).1.soft added := by
  induction entries generalizing tiers state with
  | nil => exact ⟨[], (List.append_nil _).symm, .quiet host instant rfl⟩
  | cons entry rest ih =>
      obtain ⟨fitsAfter, apartAfter⟩ := demote_prepares host.noting instant distinct state fits apart
      obtain ⟨added, told, start⟩ := handsOver_demote fits (apart entry.1 List.mem_cons_self) host instant state
      obtain ⟨more, retold, others⟩ := ih (List.nodup_cons.mp distinct).2 fitsAfter apartAfter _
      refine ⟨added ++ more, ?_, start.trans others⟩
      rw [demoteAll, ← List.append_assoc, ← told]
      exact retold

theorem handsOver_insertPrimary (valid : tiers.Valid) (softAbsent : key ∉ tiers.softKeys) (host : Host World Key Value)
    (instant : Instant) (value : Value) (state : World × List (Happening World Key Value)) :
    ∃ added, (insertPrimary host.noting instant key value tiers state).2.2.2 = state.2 ++ added ∧
      HandsOver host instant tiers.soft (insertPrimary host.noting instant key value tiers state).2.1.soft added := by
  cases present : Bindings.find? key tiers.primary.toList with
  | some old =>
      rw [insertPrimary_present present]
      exact ⟨[], (List.append_nil _).symm, .quiet host instant rfl⟩
  | none =>
      have surplus := (Line.rdrop_sublist (tiers.primary.toList ++ [(key, value)]) tiers.primary.capacity).map Prod.fst
      rw [insertPrimary_absent valid.primaryFits present]
      let inserted : Tiers Key Value := { tiers with primary := (tiers.primary.insert key value).2 }
      have fits : inserted.soft.toList.length ≤ inserted.soft.capacity := valid.softFits
      refine handsOver_demoteAll (surplus.nodup (PrimaryTier.keysDistinct_concat present)) fits ?_ host instant state
      intro other member
      exact valid.newLine_apart softAbsent value other (surplus.subset member)

/-- What an operation hands over, as seen from what it leaves in the soft tier before it does so. -/
def Entrusts (host : Host World Key Value) (operation : Operation Key Value) (tiers : Tiers Key Value)
    (world : World) : Prop :=
  ∃ entered : SoftTier Key Value,
    (∀ entry ∈ tiers.soft.toList, operation.disturbs entry.1 = false → entry ∈ entered.toList) ∧
      HandsOver host (operation.reading host world) entered (operate host operation tiers world).2.1.soft
        ((dialogue operation tiers).happenings host world)

/-- An operation entrusts what it does before a host that keeps what happens. -/
theorem entrusts_of_noting {outcome : Answer Value × Tiers Key Value × World × List (Happening World Key Value)}
    (made : operate host.noting operation tiers (world, []) = outcome) {entered : SoftTier Key Value}
    (left : ∀ entry ∈ tiers.soft.toList, operation.disturbs entry.1 = false → entry ∈ entered.toList)
    (handed : ∃ added, outcome.2.2.2 = added ∧
      HandsOver host (operation.reading host world) entered outcome.2.1.soft added) :
    Entrusts host operation tiers world := by
  subst made
  rw [operate_noting] at handed
  obtain ⟨added, rfl, handsOver⟩ := handed
  exact ⟨entered, left, handsOver⟩

/-- An operation that is told of nothing and takes at most its own key out of the soft tier. -/
theorem entrusts_of_quiet {outcome : Answer Value × Tiers Key Value × World × List (Happening World Key Value)}
    (made : operate host.noting operation tiers (world, []) = outcome) (silent : outcome.2.2.2 = [])
    (left : ∀ entry ∈ tiers.soft.toList, operation.disturbs entry.1 = false → entry ∈ outcome.2.1.soft.toList) :
    Entrusts host operation tiers world :=
  entrusts_of_noting made left ⟨[], silent, .quiet host _ rfl⟩

theorem mem_withoutSoft {entry : Key × Stamped Value} (member : entry ∈ tiers.soft.toList)
    (apart : decide (key = entry.1) = false) : entry ∈ (tiers.withoutSoft key).soft.toList := by
  rw [toList_withoutSoft]
  exact Bindings.mem_erase.mpr ⟨member, fun same => of_decide_eq_false apart same.symm⟩

/-- An operation that ends by putting an entry into the primary tier. -/
theorem entrusts_of_inserted {outcome : Answer Value × Tiers Key Value × World × List (Happening World Key Value)}
    (made : operate host.noting operation tiers (world, []) = outcome) {entered : Tiers Key Value} {value : Value}
    {start : World} (valid : entered.Valid) (softAbsent : key ∉ entered.softKeys)
    (left : ∀ entry ∈ tiers.soft.toList, operation.disturbs entry.1 = false → entry ∈ entered.soft.toList)
    (soft : outcome.2.1.soft =
      (insertPrimary host.noting (operation.reading host world) key value entered (start, [])).2.1.soft)
    (notes : outcome.2.2.2 =
      (insertPrimary host.noting (operation.reading host world) key value entered (start, [])).2.2.2) :
    Entrusts host operation tiers world := by
  obtain ⟨added, told, handsOver⟩ :=
    handsOver_insertPrimary valid softAbsent host (operation.reading host world) value (start, [])
  refine entrusts_of_noting made left ⟨added, ?_, ?_⟩
  · rw [notes, told, List.nil_append]
  · rw [soft]
    exact handsOver

theorem entrusts_put (valid : tiers.Valid) (host : Host World Key Value) (key : Key) (value : Value) (world : World) :
    Entrusts host (.put key value) tiers world := by
  cases slot : tiers.pinned.slot? key with
  | some held =>
      have made := congrArg (Prod.map Answer.value id) (put_of_pinned slot host.noting value (world, []))
      exact entrusts_of_quiet made rfl fun _ member _ => member
  | none =>
      have made := congrArg (Prod.map Answer.value id) (put_of_unpinned slot host.noting value (world, []))
      refine entrusts_of_inserted made (valid.withoutSoft key) (Valid.absent_withoutSoft tiers key) ?_
        rfl rfl
      exact fun _ member apart => mem_withoutSoft member apart

theorem entrusts_get (valid : tiers.Valid) (host : Host World Key Value) (key : Key) (world : World) :
    Entrusts host (.get key) tiers world := by
  cases slot : tiers.pinned.slot? key with
  | some held =>
      have made := congrArg (Prod.map Answer.value id) (get_of_pinned slot host.noting (world, []))
      exact entrusts_of_quiet made rfl fun _ member _ => member
  | none =>
      cases present : tiers.primary.peek? key with
      | some value =>
          have made := congrArg (Prod.map Answer.value id) (get_of_primary slot present host.noting (world, []))
          exact entrusts_of_quiet made rfl fun _ member _ => member
      | none =>
          cases live : tiers.soft.peek? (host.noting.moment (host.noting.record .getCall (world, []))) key with
          | some value =>
              have made := congrArg (Prod.map Answer.value id) (get_of_soft slot present live)
              refine entrusts_of_inserted made (valid.withoutSoft key) (Valid.absent_withoutSoft tiers key)
                ?_ rfl rfl
              exact fun _ member apart => mem_withoutSoft member apart
          | none =>
              have made := congrArg (Prod.map Answer.value id) (get_of_missing slot present live)
              exact entrusts_of_quiet made rfl fun _ member apart => mem_withoutSoft member apart

theorem entrusts_remove (host : Host World Key Value) (key : Key) (tiers : Tiers Key Value) (world : World) :
    Entrusts host (.remove key) tiers world := by
  have made := congrArg (Prod.map Answer.value id) (remove_eq host.noting key tiers (world, []))
  refine entrusts_of_quiet made ?_ fun _ member apart => mem_withoutSoft member apart
  dsimp only [Prod.map, id]
  split <;> rfl

theorem entrusts_pin (host : Host World Key Value) (key : Key) (tiers : Tiers Key Value) (world : World) :
    Entrusts host (.pin key) tiers world := by
  cases slot : tiers.pinned.slot? key with
  | some held =>
      have made := congrArg (Prod.map (@Answer.flag Value) id) (pin_of_pinned slot host.noting (world, []))
      refine entrusts_of_quiet made ?_ fun _ member _ => member
      cases held <;> rfl
  | none =>
      cases present : tiers.primary.peek? key with
      | some value =>
          have made := congrArg (Prod.map (@Answer.flag Value) id) (pin_of_primary slot present host.noting (world, []))
          exact entrusts_of_quiet made rfl fun _ member _ => member
      | none =>
          have made := congrArg (Prod.map (@Answer.flag Value) id) (pin_of_absent slot present host.noting (world, []))
          refine entrusts_of_quiet made ?_ fun _ member apart => mem_withoutSoft member apart
          dsimp only [Prod.map, id]
          split <;> rfl

theorem entrusts_unpin (valid : tiers.Valid) (host : Host World Key Value) (key : Key) (world : World) :
    Entrusts host (.unpin key) tiers world := by
  cases slot : tiers.pinned.slot? key with
  | none =>
      have made := congrArg (Prod.map (@Answer.flag Value) id) (unpin_of_unpinned slot host.noting (world, []))
      exact entrusts_of_quiet made rfl fun _ member _ => member
  | some held =>
      cases held with
      | none =>
          have made := congrArg (Prod.map (@Answer.flag Value) id) (unpin_of_empty slot host.noting (world, []))
          exact entrusts_of_quiet made rfl fun _ member _ => member
      | some value =>
          have made := congrArg (Prod.map (@Answer.flag Value) id) (unpin_of_valued slot host.noting (world, []))
          exact entrusts_of_inserted made (valid.unpinned key) (valid.softAbsent_of_pinned slot)
            (fun _ member _ => member) rfl rfl

theorem entrusts_setCacheSize (valid : tiers.Valid) (host : Host World Key Value) (capacity : Nat) (world : World) :
    Entrusts host (.setCacheSize capacity) tiers world := by
  have made := congrArg (Prod.mk (@Answer.done Value)) (setCacheSize_eq host.noting capacity tiers (world, []))
  have included := (Line.rdrop_sublist tiers.primary.toList capacity).map Prod.fst
  let resized : Tiers Key Value := { tiers with primary := (tiers.primary.setCapacity capacity).2 }
  have fits : resized.soft.toList.length ≤ resized.soft.capacity := valid.softFits
  obtain ⟨added, told, handsOver⟩ := handsOver_demoteAll (included.nodup tiers.primary.keysDistinct) fits
    (fun other member => valid.primarySoft other (included.subset member)) host (host.clock world) (world, [])
  exact entrusts_of_noting made (fun _ member _ => member) ⟨added, told, handsOver⟩

/-- A soft tier that is given less room tells of each entry that it gives up. -/
theorem entrusts_setSoftReferenceSize (host : Host World Key Value) (capacity : Nat) (tiers : Tiers Key Value)
    (world : World) : Entrusts host (.setSoftReferenceSize capacity) tiers world := by
  have told : ((dialogue (.setSoftReferenceSize capacity) tiers).happenings host world).map Happening.event =
      (tiers.soft.setCapacity capacity).1.map fun entry => Event.softOverflow entry.1 entry.2 := by
    rw [told_eq]
    exact logged_setSoftReferenceSize host capacity tiers world
  obtain ⟨surplus, kept⟩ := tiers.soft.setCapacity_eq capacity
  refine ⟨tiers.soft, fun _ member _ => member, ?_, ?_⟩
  · intro happening happened key value overflow
    have listed := List.mem_map_of_mem (f := Happening.event) happened
    rw [told] at listed
    obtain ⟨entry, -, same⟩ := List.mem_map.mp listed
    cases same.trans overflow
  · intro entry member undisplaced
    rw [told, surplus] at undisplaced
    show entry ∈ (tiers.soft.setCapacity capacity).2.toList
    rw [kept]
    rw [← List.take_append_drop (tiers.soft.toList.length - capacity) tiers.soft.toList] at member
    rcases List.mem_append.mp member with dropped | stays
    · exact absurd (List.mem_map_of_mem (List.mem_map_of_mem dropped)) (undisplaced entry.2.value)
    · exact stays

/-- An operation other than a purge leaves the soft tier what it does not displace, and its own demotions. -/
theorem entrusts_operate (valid : tiers.Valid) (host : Host World Key Value) (elementary : operation.elementary = true)
    (other : operation ≠ .purgeSoft) (world : World) : Entrusts host operation tiers world := by
  cases operation with
  | put key value => exact entrusts_put valid host key value world
  | get key => exact entrusts_get valid host key world
  | remove key => exact entrusts_remove host key tiers world
  | pin key => exact entrusts_pin host key tiers world
  | unpin key => exact entrusts_unpin valid host key world
  | putAll => cases elementary
  | clear =>
      refine ⟨tiers.soft.clear, ?_, HandsOver.quiet host _ rfl⟩
      intro entry _ apart
      cases apart
  | setCacheSize capacity => exact entrusts_setCacheSize valid host capacity world
  | setSoftReferenceSize capacity => exact entrusts_setSoftReferenceSize host capacity tiers world
  | purgeSoft => exact absurd rfl other

end Tiers

end LayeredCache
