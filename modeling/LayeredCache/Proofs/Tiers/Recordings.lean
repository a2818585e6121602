import LayeredCache.Proofs.Metrics.Totals
import LayeredCache.Proofs.Tiers.Course

/-! What operations have counted. A deed counts its call and what came of it, and every event that is told is counted as
well. The counts of a deed can be read off its outcome: from the answer, the place in which the key was found, and the
events. -/

set_option autoImplicit false

namespace LayeredCache

open Metrics (Counter Recording total Congruent congruent_of_eq congruent_of_perm)

variable {World Key Value Result Next : Type}

namespace Dialogue

theorem recordings_bind (host : Host World Key Value) (dialogue : Dialogue Key Value Result)
    (rest : Result → Dialogue Key Value Next) (world : World) :
    (dialogue >>= rest).recordings host world = dialogue.recordings host world ++
      (rest (dialogue.run host world).1).recordings host (dialogue.run host world).2 := by
  change (dialogue.bind rest).recordings host world = _
  induction dialogue generalizing world with
  | done result => rfl
  | record recording next ih => exact congrArg (List.cons recording) (ih _)
  | notify event next ih => exact ih _
  | clock next ih => exact ih _ _
  | epoch next ih => exact ih _ _

end Dialogue

/-- A world, with what was counted and told in it. -/
structure Minutes (World Key Value : Type) where
  world : World
  counted : List Recording
  told : List (Event Key Value)

/-- A host that keeps minutes of what it is asked to count and told. -/
def Host.minuting (host : Host World Key Value) : Host (Minutes World Key Value) Key Value where
  clock minutes := host.clock minutes.world
  epoch minutes := host.epoch minutes.world
  record recording minutes :=
    { minutes with world := host.record recording minutes.world, counted := minutes.counted ++ [recording] }
  notify event minutes := { minutes with world := host.notify event minutes.world, told := minutes.told ++ [event] }

theorem Dialogue.run_minuting (host : Host World Key Value) (dialogue : Dialogue Key Value Result)
    (minutes : Minutes World Key Value) :
    dialogue.run host.minuting minutes =
      ((dialogue.run host minutes.world).1,
        ⟨(dialogue.run host minutes.world).2, minutes.counted ++ dialogue.recordings host minutes.world,
          minutes.told ++ (dialogue.happenings host minutes.world).map Happening.event⟩) := by
  induction dialogue generalizing minutes with
  | done result => simp only [run, recordings, happenings, List.map_nil, List.append_nil]
  | record recording next ih =>
      rw [recordings, List.append_cons]
      exact ih _
  | notify event next ih =>
      rw [happenings, List.map_cons, List.append_cons]
      exact ih _
  | clock next ih => exact ih _ minutes
  | epoch next ih => exact ih _ minutes

/-- What is counted of an event. -/
def Event.recording : Event Key Value → Recording
  | .primaryOverflow _ _ demoted => .primaryOverflow demoted
  | .softOverflow _ _ => .softOverflow
  | .softReclaimed _ => .softReclaimed 1

/-- Whether an event is one of those that a counter counts. -/
def Event.counts (counter : Counter) : Event Key Value → Bool
  | .primaryOverflow _ _ demoted => counter = .primaryOverflows || (demoted && counter = .softDemotions)
  | .softOverflow _ _ => counter = .softOverflows
  | .softReclaimed _ => counter = .softReclaimed

theorem Event.amount_recording (counter : Counter) (event : Event Key Value) :
    event.recording.amount counter = if event.counts counter then 1 else 0 := by
  cases event with
  | primaryOverflow key value demoted => cases demoted <;> cases counter <;> rfl
  | softOverflow key value => cases counter <;> rfl
  | softReclaimed key => cases counter <;> rfl

/-- What is counted of events is how many of them a counter counts. -/
theorem total_events (counter : Counter) (events : List (Event Key Value)) :
    total counter (events.map Event.recording) = events.countP (Event.counts counter) := by
  induction events with
  | nil => rfl
  | cons event rest ih =>
      rw [List.map_cons, Metrics.total_cons, ih, Event.amount_recording, List.countP_cons, Nat.add_comm]

/-- From some minutes to later ones, events were told and each was counted when it was told. -/
def Minutes.Moved (before after : Minutes World Key Value) : Prop :=
  ∃ events, after.told = before.told ++ events ∧ after.counted = before.counted ++ events.map Event.recording

namespace Minutes.Moved

variable {before between after : Minutes World Key Value}

theorem refl (minutes : Minutes World Key Value) : Moved minutes minutes :=
  ⟨[], (List.append_nil _).symm, (List.append_nil _).symm⟩

theorem trans (first : Moved before between) (second : Moved between after) : Moved before after := by
  obtain ⟨events, told, counted⟩ := first
  obtain ⟨more, later, also⟩ := second
  refine ⟨events ++ more, ?_, ?_⟩
  · rw [later, told, List.append_assoc]
  · rw [also, counted, List.map_append, List.append_assoc]

/-- An event that is counted as it is told. -/
theorem told (host : Host World Key Value) (event : Event Key Value) (minutes : Minutes World Key Value) :
    Moved minutes (host.minuting.notify event (host.minuting.record event.recording minutes)) :=
  ⟨[event], rfl, rfl⟩

end Minutes.Moved

variable [DecidableEq Key]

/-- What is counted of a value that is looked up, by the place in which it was found. -/
def Tiers.getRecordings (tiers : Tiers Key Value) (key : Key) (found : Bool) : List Recording :=
  .getCall ::
    if !found then [.getMiss]
    else if tiers.isPinned key then [.getPinnedHit]
    else if (tiers.primary.peek? key).isSome then [.getPrimaryHit]
    else [.getSoftHit, .softPromotion]

namespace Deed

/-- What a deed has counted of the call. -/
def callRecordings (done : Deed Key Value) : List Recording :=
  match done.operation with
  | .put key _ =>
      [.putCall, if done.before.isPinned key then .putPinned else if done.answer.found then .putUpdate else .putNew]
  | .get key => done.before.getRecordings key done.answer.found
  | .remove _ => .removeCall :: if done.answer.found then [.removeFound] else []
  | .pin _ => .pinCall :: if done.answer.found then [.pinFound] else []
  | .unpin _ => .unpinCall :: if done.answer.found then [.unpinFound] else []
  | .clear => [.clear]
  | .putAll _ _ | .setCacheSize _ | .setSoftReferenceSize _ | .purgeSoft => []

/-- What a deed has counted. -/
def recordings (done : Deed Key Value) : List Recording := done.callRecordings ++ done.events.map Event.recording

end Deed

namespace Tiers

variable {host : Host World Key Value} {operation : Operation Key Value} {tiers : Tiers Key Value} {key : Key}
  {minutes : Minutes World Key Value}

omit [DecidableEq Key] in
theorem moved_announceSoftOverflow (host : Host World Key Value) (entry : Key × Value)
    (minutes : Minutes World Key Value) :
    minutes.Moved (announceSoftOverflow host.minuting entry minutes) :=
  .told host (.softOverflow entry.1 entry.2) minutes

theorem moved_demote (host : Host World Key Value) (instant : Instant) (entry : Key × Value) (tiers : Tiers Key Value)
    (minutes : Minutes World Key Value) : minutes.Moved (demote host.minuting instant entry tiers minutes).2 := by
  have told (demoted : Bool) : minutes.Moved (overflowTold host.minuting demoted entry minutes) :=
    .told host (.primaryOverflow entry.1 entry.2 demoted) minutes
  by_cases disabled : tiers.soft.capacity = 0
  · rw [demote_disabled disabled]
    exact told false
  · rw [demote_enabled (Nat.pos_of_ne_zero disabled)]
    dsimp only
    cases (tiers.soft.accept _ entry.1 entry.2).1 with
    | none => exact told true
    | some dropped => exact (told true).trans (moved_announceSoftOverflow host dropped _)

theorem moved_demoteAll (host : Host World Key Value) (instant : Instant) (entries : List (Key × Value))
    (tiers : Tiers Key Value) (minutes : Minutes World Key Value) :
    minutes.Moved (demoteAll host.minuting instant entries tiers minutes).2 := by
  induction entries generalizing tiers minutes with
  | nil => exact .refl minutes
  | cons entry rest ih => exact (moved_demote host instant entry tiers minutes).trans (ih _ _)

theorem moved_insertPrimary (host : Host World Key Value) (instant : Instant) (key : Key) (value : Value)
    (tiers : Tiers Key Value) (minutes : Minutes World Key Value) :
    minutes.Moved (insertPrimary host.minuting instant key value tiers minutes).2.2 := by
  rw [insertPrimary]
  dsimp only
  split
  · exact .refl minutes
  next entry _ => exact moved_demote host instant entry _ minutes

/-- An operation comes out before a host that keeps minutes as it does before the host by itself. -/
theorem operate_minuting (host : Host World Key Value) (operation : Operation Key Value) (tiers : Tiers Key Value)
    (world : World) :
    operate host.minuting operation tiers ⟨world, [], []⟩ =
      ((operate host operation tiers world).1, (operate host operation tiers world).2.1,
        ⟨(operate host operation tiers world).2.2, (dialogue operation tiers).recordings host world,
          (deed host operation tiers world).events⟩) := by
  rw [← perform_dialogue, ← perform_dialogue, Dialogue.perform, Dialogue.perform, Dialogue.run_minuting]
  rfl

/-- What the minutes of an operation count is what can be read off its outcome. -/
def Attested (operation : Operation Key Value) (before : Tiers Key Value)
    (outcome : Answer Value × Tiers Key Value × Minutes World Key Value) : Prop :=
  Congruent outcome.2.2.counted (Deed.mk operation before outcome.1 outcome.2.2.told outcome.2.1).recordings

omit [DecidableEq Key] in
/-- Whatever is counted after events is counted as well as before them. -/
theorem congruent_of_moved {after : Minutes World Key Value} (moved : minutes.Moved after) (start : minutes.told = [])
    (closing : List Recording) :
    Congruent (after.counted ++ closing) (minutes.counted ++ closing ++ after.told.map Event.recording) := by
  obtain ⟨events, told, counted⟩ := moved
  rw [counted, told, start, List.nil_append, List.append_assoc, List.append_assoc]
  exact congruent_of_perm (List.perm_append_comm.append_left _)

theorem attested_put (host : Host World Key Value) (key : Key) (value : Value) (tiers : Tiers Key Value)
    (world : World) :
    Attested (.put key value) tiers ((put host.minuting key value tiers ⟨world, [], []⟩).map .value id) := by
  cases slot : tiers.pinned.slot? key with
  | some held =>
      have pinned : tiers.isPinned key = true := by rw [isPinned_eq, slot]; rfl
      rw [put_of_pinned slot]
      simp only [Attested, Deed.recordings, Deed.callRecordings, pinned, ↓reduceIte]
      exact .refl _
  | none =>
      have pinned : tiers.isPinned key = false := by rw [isPinned_eq, slot]; rfl
      rw [put_of_unpinned slot]
      simp only [Attested, Deed.recordings, Deed.callRecordings, pinned, Bool.false_eq_true, ↓reduceIte]
      exact congruent_of_moved (moved_insertPrimary host _ key value (tiers.withoutSoft key) _) rfl _

theorem attested_get (host : Host World Key Value) (key : Key) (tiers : Tiers Key Value) (world : World) :
    Attested (.get key) tiers ((get host.minuting key tiers ⟨world, [], []⟩).map .value id) := by
  cases slot : tiers.pinned.slot? key with
  | some held =>
      have pinned : tiers.isPinned key = true := by rw [isPinned_eq, slot]; rfl
      rw [get_of_pinned slot]
      simp only [Attested, Deed.recordings, Deed.callRecordings, getRecordings, pinned, ↓reduceIte]
      cases held <;> exact .refl _
  | none =>
      have pinned : tiers.isPinned key = false := by rw [isPinned_eq, slot]; rfl
      simp only [Attested, Deed.recordings, Deed.callRecordings, getRecordings, pinned, Bool.false_eq_true, ↓reduceIte]
      cases present : tiers.primary.peek? key with
      | some value =>
          rw [get_of_primary slot present]
          exact .refl _
      | none =>
          cases live : tiers.soft.peek? (host.minuting.moment (host.minuting.record .getCall ⟨world, [], []⟩)) key with
          | some value =>
              rw [get_of_soft slot present live]
              obtain ⟨events, told, counted⟩ := moved_insertPrimary host
                (host.minuting.clock (host.minuting.record .getCall ⟨world, [], []⟩)) key value (tiers.withoutSoft key)
                (host.minuting.record .softPromotion
                  (host.minuting.record .getSoftHit (host.minuting.record .getCall ⟨world, [], []⟩)))
              dsimp only [Prod.map, id]
              rw [counted, told]
              exact .refl _
          | none =>
              rw [get_of_missing slot present live]
              exact .refl _

omit [DecidableEq Key] in
/-- To count whether something was found is to count it or nothing. -/
theorem minuting_if (host : Host World Key Value) (found : Bool) (recording : Recording)
    (minutes : Minutes World Key Value) :
    (if found then host.minuting.record recording minutes else minutes).counted =
        minutes.counted ++ (if found then [recording] else []) ∧
      (if found then host.minuting.record recording minutes else minutes).told = minutes.told := by
  cases found with
  | true => exact ⟨rfl, rfl⟩
  | false => exact ⟨(List.append_nil _).symm, rfl⟩

theorem attested_remove (host : Host World Key Value) (key : Key) (tiers : Tiers Key Value) (world : World) :
    Attested (.remove key) tiers ((remove host.minuting key tiers ⟨world, [], []⟩).map .value id) := by
  rw [remove_eq]
  simp only [Attested, Deed.recordings, Deed.callRecordings, Prod.map, Answer.found, id]
  rw [(minuting_if host _ .removeFound _).1, (minuting_if host _ .removeFound _).2]
  exact congruent_of_eq (List.append_nil _).symm

theorem attested_pin (host : Host World Key Value) (key : Key) (tiers : Tiers Key Value) (world : World) :
    Attested (.pin key) tiers ((pin host.minuting key tiers ⟨world, [], []⟩).map .flag id) := by
  simp only [Attested, Deed.recordings, Deed.callRecordings, Prod.map, Answer.found]
  cases slot : tiers.pinned.slot? key with
  | some held =>
      rw [pin_of_pinned slot]
      cases held <;> exact .refl _
  | none =>
      cases present : tiers.primary.peek? key with
      | some value =>
          rw [pin_of_primary slot present]
          exact .refl _
      | none =>
          rw [pin_of_absent slot present]
          dsimp only [id]
          rw [(minuting_if host _ .pinFound _).1, (minuting_if host _ .pinFound _).2]
          exact congruent_of_eq (List.append_nil _).symm

theorem attested_unpin (host : Host World Key Value) (key : Key) (tiers : Tiers Key Value) (world : World) :
    Attested (.unpin key) tiers ((unpin host.minuting key tiers ⟨world, [], []⟩).map .flag id) := by
  simp only [Attested, Deed.recordings, Deed.callRecordings, Prod.map, Answer.found]
  cases slot : tiers.pinned.slot? key with
  | none =>
      rw [unpin_of_unpinned slot]
      exact .refl _
  | some held =>
      cases held with
      | none =>
          rw [unpin_of_empty slot]
          exact .refl _
      | some value =>
          rw [unpin_of_valued slot]
          exact congruent_of_moved (moved_insertPrimary host _ key value _ _) rfl [.unpinFound]

omit [DecidableEq Key] in
theorem moved_foldl {Item : Type} {step : Minutes World Key Value → Item → Minutes World Key Value}
    (each : ∀ minutes item, Minutes.Moved minutes (step minutes item)) (items : List Item)
    (minutes : Minutes World Key Value) :
    minutes.Moved (items.foldl step minutes) := by
  induction items generalizing minutes with
  | nil => exact .refl minutes
  | cons item rest ih => exact (each minutes item).trans (ih _)

/-- An operation that counts nothing but events. -/
theorem attested_of_moved {outcome : Answer Value × Tiers Key Value × Minutes World Key Value} {world : World}
    (moved : Minutes.Moved ⟨world, [], []⟩ outcome.2.2)
    (silent : ∀ events, (Deed.mk operation tiers outcome.1 events outcome.2.1).callRecordings = []) :
    Attested operation tiers outcome := by
  obtain ⟨events, told, counted⟩ := moved
  rw [Attested, Deed.recordings, silent, counted, told]
  exact .refl _

omit [DecidableEq Key] in
theorem foldl_notify (host : Host World Key Value) {Item : Type} (event : Item → Event Key Value) (items : List Item)
    (minutes : Minutes World Key Value) :
    let after := items.foldl (fun minutes item => host.minuting.notify (event item) minutes) minutes
    after.counted = minutes.counted ∧ after.told = minutes.told ++ items.map event := by
  induction items generalizing minutes with
  | nil => exact ⟨rfl, (List.append_nil _).symm⟩
  | cons item rest ih =>
      obtain ⟨counted, told⟩ := ih (host.minuting.notify (event item) minutes)
      exact ⟨counted, told.trans (List.append_assoc ..)⟩

theorem attested_purgeSoft (host : Host World Key Value) (tiers : Tiers Key Value) (world : World) :
    Attested .purgeSoft tiers ((purgeSoft host.minuting tiers ⟨world, [], []⟩).map .count id) := by
  rw [purgeSoft]
  cases tiers.soft.purge (host.minuting.moment ⟨world, [], []⟩) with
  | mk purged soft =>
      dsimp only
      split
      · exact .refl _
      · let event (entry : Key × Value) : Event Key Value := .softReclaimed entry.1
        obtain ⟨counted, told⟩ := foldl_notify host event purged
          (host.minuting.record (.softReclaimed purged.length.toUInt64) ⟨world, [], []⟩)
        have single : (purged.map event).map Event.recording = List.replicate purged.length (.softReclaimed 1) := by
          rw [List.map_map]
          exact List.map_const' ..
        have reclaimed := Metrics.congruent_softReclaimed purged.length
        rw [← single] at reclaimed
        rw [Attested, Deed.recordings]
        dsimp only [Prod.map, id]
        rw [counted, told]
        exact reclaimed

/-- What a deed has counted can be read off its outcome. -/
theorem recordings_deed (host : Host World Key Value) (elementary : operation.elementary = true) (tiers : Tiers Key Value)
    (world : World) :
    Congruent ((dialogue operation tiers).recordings host world) (deed host operation tiers world).recordings := by
  have attested : Attested operation tiers (operate host.minuting operation tiers ⟨world, [], []⟩) := by
    cases operation with
    | put key value => exact attested_put host key value tiers world
    | get key => exact attested_get host key tiers world
    | remove key => exact attested_remove host key tiers world
    | pin key => exact attested_pin host key tiers world
    | unpin key => exact attested_unpin host key tiers world
    | putAll => cases elementary
    | clear => exact .refl _
    | setCacheSize capacity => exact attested_of_moved (moved_demoteAll host _ _ _ _) fun _ => rfl
    | setSoftReferenceSize capacity =>
        exact attested_of_moved (moved_foldl (fun _ _ => moved_announceSoftOverflow host _ _) _ _) fun _ => rfl
    | purgeSoft => exact attested_purgeSoft host tiers world
  rw [operate_minuting] at attested
  exact attested

/-- What is said in a dialogue counts and tells what some deeds count and tell. -/
structure Recounts (host : Host World Key Value) (world : World) (dialogue : Dialogue Key Value Result)
    (deeds : List (Deed Key Value)) : Prop where
  counted : Congruent (dialogue.recordings host world) (deeds.flatMap Deed.recordings)
  told : (dialogue.happenings host world).map Happening.event = deeds.flatMap Deed.events

theorem recounts_pure (host : Host World Key Value) (result : Result) (world : World) :
    Recounts host world (pure result : Dialogue Key Value Result) [] :=
  ⟨.refl _, rfl⟩

theorem Recounts.bind {dialogue : Dialogue Key Value Result} {rest : Result → Dialogue Key Value Next} {world : World}
    {deeds more : List (Deed Key Value)} (first : Recounts host world dialogue deeds)
    (second : Recounts host (dialogue.run host world).2 (rest (dialogue.run host world).1) more) :
    Recounts host world (dialogue >>= rest) (deeds ++ more) := by
  constructor
  · rw [Dialogue.recordings_bind, List.flatMap_append]
    exact first.counted.append second.counted
  · rw [Dialogue.happenings_bind, List.map_append, List.flatMap_append, first.told, second.told]

/-- What is made of a result afterwards says nothing. -/
theorem recounts_map {dialogue : Dialogue Key Value Result} {change : Result → Next} {world : World}
    {deeds : List (Deed Key Value)} :
    Recounts host world (dialogue >>= fun result => pure (change result)) deeds ↔ Recounts host world dialogue deeds := by
  have counted : (dialogue >>= fun result => pure (change result)).recordings host world =
      dialogue.recordings host world := by
    rw [Dialogue.recordings_bind]
    exact List.append_nil _
  have told : (dialogue >>= fun result => pure (change result)).happenings host world =
      dialogue.happenings host world := by
    rw [Dialogue.happenings_bind]
    exact List.append_nil _
  constructor
  · rintro ⟨counts, tells⟩
    rw [counted] at counts
    rw [told] at tells
    exact ⟨counts, tells⟩
  · rintro ⟨counts, tells⟩
    rw [← counted] at counts
    rw [← told] at tells
    exact ⟨counts, tells⟩

theorem recounts_deed (host : Host World Key Value) (operation : Operation Key Value)
    (elementary : operation.elementary = true) (tiers : Tiers Key Value) (world : World) :
    Recounts host world (dialogue operation tiers) [deed host operation tiers world] := by
  constructor
  · rw [List.flatMap_singleton]
    exact recordings_deed host elementary tiers world
  · rw [List.flatMap_singleton]
    rfl

theorem recounts_put (host : Host World Key Value) (key : Key) (value : Value) (tiers : Tiers Key Value) (world : World) :
    Recounts host world (Dialogue.put key value tiers) [deed host (.put key value) tiers world] := by
  have whole : Recounts host world ((Dialogue.put key value tiers).wrapping Answer.value)
      [deed host (.put key value) tiers world] := recounts_deed host (.put key value) rfl tiers world
  exact recounts_map.mp whole

theorem recounts_pin (host : Host World Key Value) (key : Key) (tiers : Tiers Key Value) (world : World) :
    Recounts host world (Dialogue.pin key tiers) [deed host (.pin key) tiers world] := by
  have whole : Recounts host world ((Dialogue.pin key tiers).wrapping Answer.flag)
      [deed host (.pin key) tiers world] := recounts_deed host (.pin key) rfl tiers world
  exact recounts_map.mp whole

theorem recounts_putEntry (host : Host World Key Value) (replaceExisting : Bool) (entry : Entry Key Value)
    (tiers : Tiers Key Value) (world : World) :
    Recounts host world (Dialogue.putEntry replaceExisting entry tiers)
      (entryDeeds host replaceExisting entry tiers world) := by
  have asked : Recounts host world (Dialogue.askMoment : Dialogue Key Value Moment) [] := ⟨.refl _, rfl⟩
  have puts (tiers : Tiers Key Value) (world : World) :
      Recounts host world (Dialogue.put entry.key entry.value tiers >>= fun answered => pure answered.2)
        [deed host (.put entry.key entry.value) tiers world] :=
    recounts_map.mpr (recounts_put host entry.key entry.value tiers world)
  have begun : entryDeeds host replaceExisting entry tiers world =
      [] ++ entryDeeds host replaceExisting entry tiers world := rfl
  rw [begun]
  refine asked.bind ?_
  rw [entryDeeds, Dialogue.run_askMoment]
  dsimp only
  split
  · exact recounts_pure host tiers world
  · split
    · rw [operate, ← Dialogue.perform_pin, ← List.singleton_append]
      exact (recounts_pin host entry.key tiers world).bind (puts _ _)
    · exact puts tiers world

theorem recounts_putAll (host : Host World Key Value) (replaceExisting : Bool) (entries : List (Entry Key Value))
    (tiers : Tiers Key Value) (world : World) :
    Recounts host world (Dialogue.putAll replaceExisting entries tiers)
      (copyDeeds host replaceExisting entries tiers world) := by
  induction entries generalizing tiers world with
  | nil => exact recounts_pure host tiers world
  | cons entry rest ih =>
      rw [copyDeeds, ← Dialogue.run_putEntry]
      exact (recounts_putEntry host replaceExisting entry tiers world).bind (ih _ _)

theorem recounts_operate (host : Host World Key Value) (operation : Operation Key Value) (tiers : Tiers Key Value)
    (world : World) : Recounts host world (dialogue operation tiers) (deeds host operation tiers world) := by
  cases operation with
  | putAll entries replaceExisting => exact recounts_map.mpr (recounts_putAll host replaceExisting entries tiers world)
  | put | get | remove | pin | unpin | clear | setCacheSize | setSoftReferenceSize | purgeSoft =>
      exact recounts_deed host _ rfl tiers world

/-- What a writer says to its host counts and tells what its deeds do. -/
theorem recounts_operateHeld (host : Host World Key Value) (operation : Operation Key Value) (tiers : Tiers Key Value)
    (world : World) : Recounts host world (dialogueHeld operation tiers) (deedsHeld host operation tiers world) := by
  have purge := recounts_deed host .purgeSoft rfl tiers world
  have purged : Recounts host world (Dialogue.purgeSoft tiers) [deed host .purgeSoft tiers world] := recounts_map.mp purge
  have rest : ∀ operation, Recounts host world ((Dialogue.purgeSoft tiers).followedBy (dialogue operation))
      ([deed host .purgeSoft tiers world] ++
        deeds host operation (operate host .purgeSoft tiers world).2.1 (operate host .purgeSoft tiers world).2.2) := by
    intro operation
    rw [operate, ← Dialogue.perform_purgeSoft]
    exact purged.bind (recounts_operate host operation _ _)
  cases operation with
  | purgeSoft => exact purge
  | put | get | remove | pin | unpin | putAll | clear | setCacheSize | setSoftReferenceSize => exact rest _

end Tiers

end LayeredCache
