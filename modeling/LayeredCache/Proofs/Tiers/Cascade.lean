import LayeredCache.Proofs.Tiers.Accounts
import LayeredCache.Proofs.Tiers.Readings

/-! What an entry does that is new to the bounded tiers. The primary tier takes it in, if it has any room at all. What a
full one gives up goes to the soft tier, which gives up its oldest entry if it is full as well. -/

set_option autoImplicit false

namespace LayeredCache

variable {World Key Value : Type}

/-- The stamp of an entry that the soft tier accepts, once it was told that the primary tier gave the entry up. -/
def Host.admission (host : Host World Key Value) (instant : Instant) (world : World) (entry : Key × Value) : Moment :=
  ⟨instant, host.epoch (Tiers.overflowTold host true entry world)⟩

variable [DecidableEq Key]

/-- The entry that a full tier gives up for a new one: its first, or the new one where there is no room at all. -/
inductive PrimaryTier.GivesUp (before : PrimaryTier Key Value) (entry : Key × Value) (after : PrimaryTier Key Value) :
    Key × Value → Prop where
  | oldest {first : Key × Value} {rest : List (Key × Value)} (full : before.toList.length = before.capacity)
      (line : before.toList = first :: rest) (kept : after.toList = rest ++ [entry]) : GivesUp before entry after first
  | itself (disabled : before.capacity = 0) (kept : after.toList = before.toList) : GivesUp before entry after entry

namespace PrimaryTier.GivesUp

variable {before after : PrimaryTier Key Value} {entry ejected : Key × Value}

theorem keeps (gives : before.GivesUp entry after ejected) (room : 0 < before.capacity) : entry ∈ after.toList := by
  cases gives with
  | oldest full line kept =>
      rw [kept]
      exact List.mem_append_right _ (List.mem_singleton_self entry)
  | itself disabled kept => exact absurd disabled (Nat.ne_of_gt room)

theorem eq_of_disabled (gives : before.GivesUp entry after ejected) (disabled : before.capacity = 0) :
    ejected = entry := by
  cases gives with
  | oldest full line kept =>
      rw [disabled, line] at full
      cases full
  | itself disabled kept => rfl

theorem full (gives : before.GivesUp entry after ejected) : before.capacity ≤ before.toList.length := by
  cases gives with
  | oldest full => exact Nat.le_of_eq full.symm
  | itself disabled => exact disabled ▸ Nat.zero_le _

/-- The old entries and the new one are the one given up and those kept. -/
theorem mem_iff (gives : before.GivesUp entry after ejected) (other : Key × Value) :
    other = ejected ∨ other ∈ after.toList ↔ other = entry ∨ other ∈ before.toList := by
  cases gives with
  | oldest full line kept =>
      rw [kept, line, List.mem_append, List.mem_singleton, List.mem_cons]
      exact or_rotate.symm
  | itself disabled kept => rw [kept]

end PrimaryTier.GivesUp

theorem PrimaryTier.insert_new {tier : PrimaryTier Key Value} {key : Key}
    (fits : tier.toList.length ≤ tier.capacity) (absent : Bindings.find? key tier.toList = none) (value : Value) :
    (tier.toList.length < tier.capacity ∧ (tier.insert key value).1 = ⟨none, none⟩ ∧
        (tier.insert key value).2.toList = tier.toList ++ [(key, value)]) ∨
      ∃ ejected, (tier.insert key value).1 = ⟨none, some ejected⟩ ∧
        tier.GivesUp (key, value) (tier.insert key value).2 ejected := by
  by_cases disabled : tier.capacity = 0
  · rw [insert_of_capacity_zero absent disabled]
    exact .inr ⟨_, rfl, .itself disabled rfl⟩
  · obtain ⟨outcome, line⟩ := insert_of_absent absent disabled value
    rw [outcome, line]
    by_cases full : tier.capacity < tier.toList.length + 1
    · right
      have length : tier.toList.length = tier.capacity := Nat.le_antisymm fits (Nat.le_of_lt_succ full)
      rw [if_pos full]
      cases stored : tier.toList with
      | nil =>
          rw [stored] at length
          exact absurd length.symm disabled
      | cons first rest =>
          refine ⟨first, rfl, .oldest length stored ?_⟩
          rw [line, if_pos full, stored]
          rfl
    · left
      rw [if_neg full, if_neg full]
      exact ⟨by omega, rfl, rfl⟩

theorem SoftTier.accept_new {tier : SoftTier Key Value} {key : Key} (fits : tier.toList.length ≤ tier.capacity)
    (absent : key ∉ tier.toList.map Prod.fst) (enabled : 0 < tier.capacity) (moment : Moment) (value : Value) :
    (tier.toList.length < tier.capacity ∧ (tier.accept moment key value).1 = none ∧
        (tier.accept moment key value).2.toList = tier.toList ++ [(key, ⟨value, moment⟩)]) ∨
      ∃ oldest rest, tier.toList.length = tier.capacity ∧ tier.toList = oldest :: rest ∧
        (tier.accept moment key value).1 = some (Stamped.unstamped oldest) ∧
          (tier.accept moment key value).2.toList = rest ++ [(key, ⟨value, moment⟩)] := by
  obtain ⟨outcome, line⟩ := accept_eq (Nat.ne_of_gt enabled) moment key value
  rw [Bindings.erase_eq_self absent] at outcome line
  rw [outcome, line]
  by_cases full : tier.capacity < tier.toList.length + 1
  · right
    have length : tier.toList.length = tier.capacity := Nat.le_antisymm fits (Nat.le_of_lt_succ full)
    rw [if_pos full, if_pos full]
    cases stored : tier.toList with
    | nil =>
        rw [stored] at length
        exact absurd length (Nat.ne_of_lt enabled)
    | cons oldest rest => exact ⟨oldest, rest, stored ▸ length, rfl, rfl, rfl⟩
  · left
    rw [if_neg full, if_neg full]
    exact ⟨by omega, rfl, rfl⟩

namespace Tiers

variable {host : Host World Key Value} {holds : World → Prop} {log : World → List (Event Key Value)}
  {stamp : Key × Value → Moment} {entry : Key × Value} {events : List (Event Key Value)}
  {tiers before after : Tiers Key Value} {key : Key} {value : Value} {moment : Moment} {world : World}

/-- What becomes of the bounded tiers when an entry comes in, and which events tell of it. -/
inductive Cascade (stamp : Key × Value → Moment) (entry : Key × Value) (before after : Tiers Key Value) :
    List (Event Key Value) → Prop where
  | fits (room : before.primary.toList.length < before.cacheSize)
      (primary : after.primary.toList = before.primary.toList ++ [entry])
      (soft : after.soft.toList = before.soft.toList) : Cascade stamp entry before after []
  | dropped {ejected : Key × Value} (primary : before.primary.GivesUp entry after.primary ejected)
      (disabled : before.softReferenceSize = 0) (soft : after.soft.toList = before.soft.toList) :
      Cascade stamp entry before after [.primaryOverflow ejected.1 ejected.2 false]
  | demoted {ejected : Key × Value} (primary : before.primary.GivesUp entry after.primary ejected)
      (room : before.soft.toList.length < before.softReferenceSize)
      (soft : after.soft.toList = before.soft.toList ++ [(ejected.1, ⟨ejected.2, stamp ejected⟩)]) :
      Cascade stamp entry before after [.primaryOverflow ejected.1 ejected.2 true]
  | displaced {ejected : Key × Value} {oldest : Key × Stamped Value} {rest : List (Key × Stamped Value)}
      (primary : before.primary.GivesUp entry after.primary ejected)
      (full : before.soft.toList.length = before.softReferenceSize) (line : before.soft.toList = oldest :: rest)
      (soft : after.soft.toList = rest ++ [(ejected.1, ⟨ejected.2, stamp ejected⟩)]) :
      Cascade stamp entry before after
        [.primaryOverflow ejected.1 ejected.2 true, .softOverflow oldest.1 oldest.2.value]

/-- A demotion is told first, and then what the soft tier gives up for it. -/
theorem demote_log (logs : host.Logs holds log) (held : holds world) (enabled : 0 < tiers.soft.capacity)
    (instant : Instant) (entry : Key × Value) :
    log (demote host instant entry tiers world).2 =
      log world ++ .primaryOverflow entry.1 entry.2 true ::
        (tiers.soft.accept (host.admission instant world entry) entry.1 entry.2).1.toList.map fun dropped =>
          .softOverflow dropped.1 dropped.2 := by
  have told := overflowTold_log logs held true entry
  rw [demote_enabled enabled]
  dsimp only
  rw [Host.admission]
  cases (tiers.soft.accept ⟨instant, host.epoch (overflowTold host true entry world)⟩ entry.1 entry.2).1 with
  | none => exact told
  | some dropped =>
      rw [Option.elim_some, announceSoftOverflow_log logs (overflowTold_keeps logs.keeps true entry held), told,
        List.append_assoc]
      rfl

theorem demote_soft (enabled : 0 < tiers.soft.capacity) (host : Host World Key Value) (instant : Instant)
    (entry : Key × Value) (world : World) :
    (demote host instant entry tiers world).1.soft =
      (tiers.soft.accept (host.admission instant world entry) entry.1 entry.2).2 := by
  rw [demote_enabled enabled]
  rfl

theorem primary_demote (host : Host World Key Value) (instant : Instant) (entry : Key × Value) (tiers : Tiers Key Value)
    (world : World) : (demote host instant entry tiers world).1.primary = tiers.primary := by
  obtain ⟨demoted, after⟩ := demote_fst host instant entry tiers world
  rw [after]

/-- What the primary tier gives up is dropped or goes to the soft tier, which gives up its oldest entry if it is full. -/
theorem demote_cascades {ejected : Key × Value} (logs : host.Logs holds log) (held : holds world)
    (inserted : Tiers Key Value) (gives : before.primary.GivesUp entry inserted.primary ejected)
    (soft : inserted.soft = before.soft)
    (fits : before.soft.toList.length ≤ before.softReferenceSize) (absent : ejected.1 ∉ before.softKeys)
    (instant : Instant) :
    ∃ events, log (demote host instant ejected inserted world).2 = log world ++ events ∧
      Cascade (host.admission instant world) entry before (demote host instant ejected inserted world).1 events := by
  by_cases disabled : inserted.soft.capacity = 0
  · rw [demote_disabled disabled]
    exact ⟨_, overflowTold_log logs held false ejected, .dropped gives (soft ▸ disabled : before.soft.capacity = 0)
      (congrArg SoftTier.toList soft)⟩
  · have enabled := Nat.pos_of_ne_zero disabled
    have told := demote_log logs held enabled instant ejected
    have line := congrArg SoftTier.toList (demote_soft enabled host instant ejected world)
    rw [soft] at enabled told line
    rw [← primary_demote host instant ejected inserted world] at gives
    rcases SoftTier.accept_new fits absent enabled (host.admission instant world ejected) ejected.2 with
      ⟨room, accepted, stored⟩ | ⟨oldest, rest, full, stored, accepted, kept⟩
    · rw [accepted] at told
      exact ⟨_, told, .demoted gives room (line.trans stored)⟩
    · rw [accepted] at told
      exact ⟨_, told, .displaced gives full stored (line.trans kept)⟩

theorem insertPrimary_cascades (logs : host.Logs holds log) (held : holds world) (valid : tiers.Valid)
    (absent : Bindings.find? key tiers.primary.toList = none) (softAbsent : key ∉ tiers.softKeys)
    (instant : Instant) (value : Value) :
    ∃ events, log (insertPrimary host instant key value tiers world).2.2 = log world ++ events ∧
      Cascade (host.admission instant world) (key, value) tiers
        (insertPrimary host instant key value tiers world).2.1 events := by
  rcases PrimaryTier.insert_new valid.primaryFits absent value with ⟨room, outcome, line⟩ | ⟨ejected, outcome, gives⟩
  · simp only [insertPrimary, outcome]
    exact ⟨[], (List.append_nil _).symm, .fits room line rfl⟩
  · simp only [insertPrimary, outcome]
    -- what is ejected was in the primary tier or is new, so that the soft tier has no entry of its key
    refine demote_cascades logs held { tiers with primary := (tiers.primary.insert key value).2 } gives rfl
      valid.softFits ?_ instant
    cases gives with
    | oldest full line kept => exact valid.primarySoft _ (List.mem_map_of_mem (line ▸ List.mem_cons_self))
    | itself disabled kept => exact softAbsent

/-- An entry that comes in ends up in the primary tier, if that has any room at all. -/
theorem Cascade.mem_primary (cascade : Cascade stamp entry before after events) (room : 0 < before.cacheSize) :
    entry ∈ after.primary.toList := by
  cases cascade with
  | fits _ primary =>
      rw [primary]
      exact List.mem_append_right _ (List.mem_singleton_self entry)
  | dropped primary | demoted primary | displaced primary => exact primary.keeps room

/-- Without room in the primary tier, an entry that comes in ends up in the soft tier. -/
theorem Cascade.mem_soft (cascade : Cascade stamp entry before after events) (disabled : before.cacheSize = 0)
    (room : 0 < before.softReferenceSize) : (entry.1, ⟨entry.2, stamp entry⟩) ∈ after.soft.toList := by
  cases cascade with
  | fits within => exact absurd disabled (Nat.ne_of_gt (Nat.zero_lt_of_lt within))
  | dropped primary none => exact absurd none (Nat.ne_of_gt room)
  | demoted primary _ soft | displaced primary _ _ soft =>
      rw [soft, ← primary.eq_of_disabled disabled]
      exact List.mem_append_right _ (List.mem_singleton_self _)

/-- What an operation does that brings an entry into the bounded tiers, from the time its call is counted. -/
structure Admits (host : Host World Key Value) (log : World → List (Event Key Value)) (called : World)
    (entry : Key × Value) (before : Tiers Key Value) (outcome : Tiers Key Value × World) : Prop where
  cascade : ∃ events, log outcome.2 = log called ++ events ∧
    Cascade (host.admission (host.clock called) called) entry before outcome.1 events
  pinned : outcome.1.pinned = before.pinned
  cacheSize : outcome.1.cacheSize = before.cacheSize
  evictionOrder : outcome.1.evictionOrder = before.evictionOrder
  softReferenceSize : outcome.1.softReferenceSize = before.softReferenceSize
  ttl : outcome.1.soft.ttl = before.soft.ttl
  lost : ∃ lost, lost.length ≤ 1 ∧ before.line ++ [entry] = lost ++ outcome.1.line
  served : 0 < before.cacheSize → ∀ {Other : Type} (reader : Host Other Key Value) (image : Other),
    (get reader entry.1 outcome.1 image).1 = some entry.2
  servedSoft : 0 < before.softReferenceSize → (∀ lifetime ∈ before.soft.ttl, 0 < lifetime.nanoseconds) →
    ∀ {Other : Type} (reader : Host Other Key Value) (image : Other),
      reader.moment (reader.record .getCall image) = host.admission (host.clock called) called entry →
        (get reader entry.1 outcome.1 image).1 = some entry.2

theorem insertPrimary_admits (logs : host.Logs holds log) (held : holds world) (valid : tiers.Valid)
    (unpinned : tiers.pinned.slot? key = none) (absent : Bindings.find? key tiers.primary.toList = none)
    (softAbsent : key ∉ tiers.softKeys) (value : Value) :
    Admits host log world (key, value) tiers
      (insertPrimary host (host.clock world) key value tiers world).2 := by
  have settles := valid.settles_insertPrimary logs.keeps (host.clock world) value world held absent softAbsent
  have validAfter := valid.insertPrimary unpinned softAbsent host (host.clock world) value world
  obtain ⟨events, told, cascade⟩ :=
    insertPrimary_cascades logs held valid absent softAbsent (host.clock world) value
  have served : 0 < tiers.cacheSize → ∀ {Other : Type} (reader : Host Other Key Value) (image : Other),
      (get reader key (insertPrimary host (host.clock world) key value tiers world).2.1 image).1 = some value := by
    intro room Other reader image
    rw [get_fst validAfter, validAfter.value?_eq_some_iff]
    exact .inr (.inl (cascade.mem_primary room))
  exact {
    cascade := ⟨events, told, cascade⟩
    pinned := settles.pinned
    cacheSize := settles.cacheSize
    evictionOrder := settles.order
    softReferenceSize := settles.softReferenceSize
    ttl := settles.ttl
    lost := by
      refine ⟨(tiers.line ++ [(key, value)]).rdrop (tiers.primary.capacity + tiers.soft.capacity), ?_, ?_⟩
      · have primary := valid.primaryFits
        have soft := valid.softFits
        rw [List.rdrop, List.length_take, List.length_append, line, List.length_append, List.length_map,
          List.length_singleton]
        omega
      · rw [settles.line valid.softFits, ← List.append_assoc, ← line, Line.rdrop_append_rtake]
    served := served
    servedSoft := by
      intro room lasting Other reader image here
      by_cases disabled : tiers.cacheSize = 0
      · have live : Stamped.isLive tiers.soft.ttl (host.admission (host.clock world) world (key, value))
            ⟨value, host.admission (host.clock world) world (key, value)⟩ = true := by
          refine Stamped.isLive_iff.mpr ⟨rfl, ?_⟩
          intro lifetime given
          rw [Nat.sub_self]
          exact lasting lifetime given
        rw [← settles.ttl] at live
        rw [get_fst validAfter, here, validAfter.value?_eq_some_iff, SoftTier.live_eq_visible, SoftTier.visible_eq]
        exact .inr (.inr (List.mem_map_of_mem (List.mem_filter.mpr ⟨cascade.mem_soft disabled room, live⟩)))
      · exact served (Nat.pos_of_ne_zero disabled) reader image }

/-- A count made in the end changes nothing of an admission. -/
theorem Admits.counted {called later : World} {outcome : Tiers Key Value × World}
    (admits : Admits host log called entry before outcome) (same : log later = log outcome.2) :
    Admits host log called entry before (outcome.1, later) := by
  obtain ⟨events, told, cascade⟩ := admits.cascade
  exact { admits with cascade := ⟨events, same.trans told, cascade⟩ }

theorem put_admits (logs : host.Logs holds log) (held : holds world) (valid : tiers.Valid)
    (unpinned : tiers.pinned.slot? key = none)
    (missing : tiers.value? (host.moment (host.record .putCall world)) key = none) (value : Value) :
    (put host key value tiers world).1 = none ∧
      Admits host log (host.record .putCall world) (key, value) (tiers.withoutSoft key)
        (put host key value tiers world).2 := by
  have called := logs.keeps.record .putCall held
  have without := valid.withoutSoft key
  rw [value?_of_unpinned unpinned, Option.or_eq_none_iff] at missing
  obtain ⟨primary, soft⟩ := missing
  have absent : Bindings.find? key (tiers.withoutSoft key).primary.toList = none := by
    rw [← PrimaryTier.peek?_eq]
    exact primary
  have admits := insertPrimary_admits logs called without unpinned absent (Valid.absent_withoutSoft tiers key) value
  have inserted := insertPrimary_keeps logs.keeps called (host.clock (host.record .putCall world)) key value
    (tiers.withoutSoft key)
  rw [put_of_unpinned unpinned]
  refine ⟨?_, admits.counted (logs.record _ inserted)⟩
  dsimp only
  rw [insertPrimary_fst without.primaryFits, soft]
  exact (Option.or_none).trans primary

theorem unpin_admits (logs : host.Logs holds log) (held : holds world) (valid : tiers.Valid)
    (pinned : tiers.pinned.slot? key = some (some value)) :
    (unpin host key tiers world).1 = true ∧
      Admits host log (host.record .unpinCall world) (key, value)
        { tiers with pinned := (tiers.pinned.unpin key).2 } (unpin host key tiers world).2 := by
  have called := logs.keeps.record .unpinCall held
  have unpinned : (tiers.pinned.unpin key).2.slot? key = none := by rw [PinnedTier.slot?_unpin, if_pos rfl]
  have absent : Bindings.find? key tiers.primary.toList = none := by
    rw [Bindings.find?_eq_none_iff]
    intro stored
    cases pinned.symm.trans (valid.primaryUnpinned key stored)
  have admits := insertPrimary_admits logs called (valid.unpinned key) unpinned absent
    (valid.softAbsent_of_pinned pinned) value
  have inserted := insertPrimary_keeps logs.keeps called (host.clock (host.record .unpinCall world)) key value
    { tiers with pinned := (tiers.pinned.unpin key).2 }
  rw [unpin_of_valued pinned]
  exact ⟨rfl, admits.counted (logs.record _ inserted)⟩

/-- A key that shows no value and is given one, and a pinned one that is unpinned, enter the bounded tiers as their newest
entry. Their dead copy goes first, if they have one. -/
theorem new_entries_cascade (reachable : tiers.Reachable) (logs : host.Logs holds log) (held : holds world)
    (key : Key) (value : Value) :
    (tiers.pinned.slot? key = none → tiers.value? (host.moment (host.record .putCall world)) key = none →
        (put host key value tiers world).1 = none ∧
          Admits host log (host.record .putCall world) (key, value) (tiers.withoutSoft key)
            (put host key value tiers world).2) ∧
      (tiers.pinned.slot? key = some (some value) →
        (unpin host key tiers world).1 = true ∧
          Admits host log (host.record .unpinCall world) (key, value)
            { tiers with pinned := (tiers.pinned.unpin key).2 } (unpin host key tiers world).2) :=
  ⟨fun unpinned missing => put_admits logs held reachable.valid unpinned missing value,
    unpin_admits logs held reachable.valid⟩

/-- With one entry in either tier, a new entry and one that is unpinned displace the same two. -/
theorem new_entry_passes_two_on :
    let ledger : Ledger Nat Nat := .start ⟨0, 0⟩
    let asked : List (Operation Nat Nat) := [.put 1 10, .put 2 20, .pin 3, .put 3 30]
    let tiers := asked.foldl (fun tiers operation => (operate .ledger operation tiers ledger).2.1)
      (.empty .fifo 1 1 none)
    let written := (put .ledger 4 40 tiers ledger).2
    let unpinned := (unpin .ledger 3 tiers ledger).2
    written.2.events = [.primaryOverflow 2 20 true, .softOverflow 1 10] ∧ unpinned.2.events = written.2.events ∧
      Admits .ledger Ledger.events (Host.ledger.record .putCall ledger) (4, 40) (tiers.withoutSoft 4) written ∧
        Admits .ledger Ledger.events (Host.ledger.record .unpinCall ledger) (3, 30)
          { tiers with pinned := (tiers.pinned.unpin 3).2 } unpinned := by
  intro ledger asked tiers written unpinned
  have reachable : tiers.Reachable := (Reachable.fresh .fifo 1 1 none).foldl .ledger ledger asked
  have logs : (Host.ledger : Host (Ledger Nat Nat) Nat Nat).Logs (fun _ => True) Ledger.events :=
    ⟨Host.keeps_true _, fun _ _ _ => rfl, fun _ _ _ => rfl⟩
  have told : written.2.events = [.primaryOverflow 2 20 true, .softOverflow 1 10] := by decide +kernel
  have again : unpinned.2.events = written.2.events := by decide +kernel
  have absent : tiers.pinned.slot? 4 = none := by decide +kernel
  have missing : tiers.value? (Host.ledger.moment (Host.ledger.record .putCall ledger)) 4 = none := by decide +kernel
  have pinned : tiers.pinned.slot? 3 = some (some 30) := by decide +kernel
  exact ⟨told, again, ((new_entries_cascade reachable logs trivial 4 40).1 absent missing).2,
    ((new_entries_cascade reachable logs trivial 3 30).2 pinned).2⟩

end Tiers

end LayeredCache
