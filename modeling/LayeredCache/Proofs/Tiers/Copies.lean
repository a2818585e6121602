import LayeredCache.Proofs.Tiers.Touching

/-! Copying entries into tiers. A key that no entry has goes on to show what it did, until it is pushed out. A key that
shows a value is passed over when its turn comes, unless its value is to be replaced; but what came before it may have
pushed it out, and then it is copied like any other. -/

set_option autoImplicit false

namespace LayeredCache

variable {World Key Value : Type}

/-- An event that tells of an entry leaving its tier for want of room. -/
def Event.Ousts (event : Event Key Value) (key : Key) (value : Value) : Prop :=
  (∃ demoted, event = .primaryOverflow key value demoted) ∨ event = .softOverflow key value

variable [DecidableEq Key]

namespace Tiers

variable {host : Host World Key Value} {holds : World → Prop} {log : World → List (Event Key Value)}
  {stamp : Key × Value → Moment} {entry : Entry Key Value} {entries : List (Entry Key Value)}
  {events : List (Event Key Value)} {tiers before after : Tiers Key Value} {replaceExisting : Bool}
  {key other : Key} {value : Value} {moment : Moment} {world : World}

/-! ### Entries of one tier -/

section Tagged

variable {tier : TierName} {bindings : List (Key × Value)}

omit [DecidableEq Key]

/-- Bindings listed as entries of a tier. -/
def tagged (tier : TierName) (bindings : List (Key × Value)) : List (Entry Key Value) :=
  bindings.map fun binding => ⟨binding.1, binding.2, tier⟩

theorem bindings_tagged (tier : TierName) (bindings : List (Key × Value)) :
    (tagged tier bindings).map Entry.binding = bindings := by
  rw [tagged, List.map_map]
  exact List.map_id _

theorem keys_tagged (tier : TierName) (bindings : List (Key × Value)) :
    (tagged tier bindings).map Entry.key = bindings.map Prod.fst := by
  rw [tagged, List.map_map]
  rfl

theorem tier_of_tagged (listed : entry ∈ tagged tier bindings) : entry.tier = tier := by
  obtain ⟨binding, -, rfl⟩ := List.mem_map.mp listed
  rfl

theorem unpinned_of_tagged (other : tier ≠ .pinned) (listed : entry ∈ tagged tier bindings) : entry.tier ≠ .pinned := by
  rw [tier_of_tagged listed]
  exact other

theorem mem_of_tagged (listed : entry ∈ tagged tier bindings) : entry.binding ∈ bindings := by
  obtain ⟨binding, stored, rfl⟩ := List.mem_map.mp listed
  exact stored

end Tagged

theorem entries_tagged (tiers : Tiers Key Value) (moment : Moment) :
    tiers.entries moment = tagged .pinned tiers.pinned.toList ++
      (tagged .primary tiers.primary.toList ++ tagged .soft (tiers.soft.live moment)) :=
  List.append_assoc _ _ _

/-! ### What is told -/

/-- From one world to another, whatever could be told of was demoted. -/
def TellsDemotions (log : World → List (Event Key Value)) (before after : World) : Prop :=
  ∃ events, log after = log before ++ events ∧ ∀ event ∈ events, ∃ key value, event = .primaryOverflow key value true

section Demotions

omit [DecidableEq Key]

variable {first second third : World}

theorem TellsDemotions.silent (same : log second = log first) : TellsDemotions log first second :=
  ⟨[], same.trans (List.append_nil _).symm, List.forall_mem_nil _⟩

theorem TellsDemotions.trans (start : TellsDemotions log first second) (rest : TellsDemotions log second third) :
    TellsDemotions log first third := by
  obtain ⟨events, told, demoted⟩ := start
  obtain ⟨more, added, alike⟩ := rest
  refine ⟨events ++ more, by rw [added, told, List.append_assoc], ?_⟩
  intro event listed
  exact (List.mem_append.mp listed).elim (demoted event) (alike event)

end Demotions

/-! ### One entry -/

/-- Whether an entry is passed over: its key shows a value that is to be kept. -/
def passesOver (replaceExisting : Bool) (moment : Moment) (entry : Entry Key Value) (tiers : Tiers Key Value) : Bool :=
  !replaceExisting && (tiers.value? moment entry.key).isSome

theorem putEntry_of_passed (here : host.moment world = moment)
    (passed : tiers.passesOver replaceExisting moment entry = true) :
    putEntry host replaceExisting entry tiers world = (tiers, world) := by
  rw [passesOver, isSome_value?, ← here] at passed
  rw [putEntry, if_pos passed]

/-- What is done before an entry is put: its key is pinned, if it was at its source. -/
def prepare (host : Host World Key Value) (entry : Entry Key Value) (tiers : Tiers Key Value) (world : World) :
    Tiers Key Value × World :=
  if entry.tier = .pinned then (pin host entry.key tiers world).2 else (tiers, world)

theorem putEntry_of_copied (here : host.moment world = moment)
    (copied : tiers.passesOver replaceExisting moment entry = false) :
    putEntry host replaceExisting entry tiers world =
      let prepared := prepare host entry tiers world
      (put host entry.key entry.value prepared.1 prepared.2).2 := by
  rw [passesOver, isSome_value?, ← here] at copied
  rw [putEntry, if_neg (Bool.eq_false_iff.mp copied), prepare]
  split
  · rfl
  · rfl

theorem putAll_append (host : Host World Key Value) (replaceExisting : Bool) (entries more : List (Entry Key Value))
    (tiers : Tiers Key Value) (world : World) :
    putAll host replaceExisting (entries ++ more) tiers world =
      let copied := putAll host replaceExisting entries tiers world
      putAll host replaceExisting more copied.1 copied.2 := by
  induction entries generalizing tiers world with
  | nil => rfl
  | cons entry rest ih => exact ih _ _

theorem putEntry_keeps (keeps : host.Keeps holds) (held : holds world) (replaceExisting : Bool)
    (entry : Entry Key Value) (tiers : Tiers Key Value) : holds (putEntry host replaceExisting entry tiers world).2 :=
  (putEntry_simulates keeps.simulates replaceExisting entry tiers ⟨rfl, held⟩).2.2

theorem putEntry_grows (logs : host.Logs holds log) (held : holds world) (replaceExisting : Bool)
    (entry : Entry Key Value) (tiers : Tiers Key Value) :
    ∃ events, log (putEntry host replaceExisting entry tiers world).2 = log world ++ events := by
  obtain ⟨events, grown⟩ := (putEntry_keeps (logs.grows world) ⟨held, List.prefix_refl _⟩ replaceExisting entry tiers).2
  exact ⟨events, grown.symm⟩

/-! ### Pinning -/

theorem pin_keeps (keeps : host.Keeps holds) (held : holds world) (key : Key) (tiers : Tiers Key Value) :
    holds (pin host key tiers world).2.2 :=
  (pin_simulates keeps.simulates key tiers ⟨rfl, held⟩).2.2.2

theorem pin_log (logs : host.Logs holds log) (held : holds world) (key : Key) (tiers : Tiers Key Value) :
    log (pin host key tiers world).2.2 = log world := by
  have called := logs.record .pinCall held
  have kept := logs.keeps.record .pinCall held
  cases slot : tiers.pinned.slot? key with
  | some stored =>
      rw [pin_of_pinned slot]
      exact (log_record_if logs kept _ _).trans called
  | none =>
      cases present : tiers.primary.peek? key with
      | some value =>
          rw [pin_of_primary slot present]
          exact (logs.record .pinFound kept).trans called
      | none =>
          rw [pin_of_absent slot present]
          exact (log_record_if logs kept _ _).trans called

theorem value?_withPin (tiers : Tiers Key Value) (moment : Moment) (key other : Key) (slot : Option Value) :
    ({ tiers with pinned := tiers.pinned.pin key slot } : Tiers Key Value).value? moment other =
      if other = key then slot.or ((tiers.primary.peek? key).or (tiers.soft.peek? moment key))
      else tiers.value? moment other := by
  rw [value?, value?, PinnedTier.value?, PinnedTier.value?, PinnedTier.slot?_pin]
  split
  next same => rw [same]; rfl
  next => rfl

/-- A pin takes the value along that its key shows. -/
theorem value?_pin (keeps : host.Keeps holds) (held : holds world)
    (stands : ∀ {world}, holds world → host.moment world = moment) (key other : Key) :
    (pin host key tiers world).2.1.value? moment other = tiers.value? moment other := by
  have here : host.moment (host.record .pinCall world) = moment := stands (keeps.record .pinCall held)
  cases slot : tiers.pinned.slot? key with
  | some stored => rw [pin_of_pinned slot]
  | none =>
      have own := value?_of_unpinned slot moment
      cases present : tiers.primary.peek? key with
      | some value =>
          have moved := value?_withPin { tiers with primary := (tiers.primary.remove key).2 } moment key other (some value)
          rw [pin_of_primary slot present]
          refine moved.trans ?_
          split
          next same => rw [same, own, present, Option.some_or, Option.some_or]
          next apart =>
            rw [value?, value?, PrimaryTier.peek?_eq, (tiers.primary.remove_eq key).2, Bindings.find?_erase, if_neg apart,
              ← PrimaryTier.peek?_eq]
      | none =>
          have moved := value?_withPin (tiers.withoutSoft key) moment key other (tiers.soft.peek? moment key)
          rw [peek?_withoutSoft, if_pos rfl, Option.or_none] at moved
          rw [pin_of_absent slot present]
          dsimp only
          rw [here]
          refine moved.trans ?_
          split
          next same =>
            show (tiers.soft.peek? moment key).or (tiers.primary.peek? key) = _
            rw [same, own, present, Option.or_none, Option.none_or]
          next apart => exact value?_withoutSoft fun same => absurd same apart

theorem Valid.prepare (valid : tiers.Valid) (host : Host World Key Value) (entry : Entry Key Value) (world : World) :
    (Tiers.prepare host entry tiers world).1.Valid := by
  rw [Tiers.prepare]
  split
  · exact valid.pin host entry.key world
  · exact valid

theorem prepare_keeps (keeps : host.Keeps holds) (held : holds world) (entry : Entry Key Value)
    (tiers : Tiers Key Value) : holds (prepare host entry tiers world).2 := by
  rw [prepare]
  split
  · exact pin_keeps keeps held entry.key tiers
  · exact held

theorem prepare_log (logs : host.Logs holds log) (held : holds world) (entry : Entry Key Value)
    (tiers : Tiers Key Value) : log (prepare host entry tiers world).2 = log world := by
  rw [prepare]
  split
  · exact pin_log logs held entry.key tiers
  · rfl

theorem value?_prepare (keeps : host.Keeps holds) (held : holds world)
    (stands : ∀ {world}, holds world → host.moment world = moment) (entry : Entry Key Value) (key : Key) :
    (prepare host entry tiers world).1.value? moment key = tiers.value? moment key := by
  rw [prepare]
  split
  · exact value?_pin keeps held stands entry.key key
  · rfl

/-! ### Keys that no entry has -/

omit [DecidableEq Key] in
/-- A line that one more entry joins shows what it did, and the new entry if that is live. -/
theorem shown_concat {line : List (Key × Stamped Value)} {ttl : Option Span} {ejected binding : Key × Value}
    {accepted : Moment}
    (member : binding ∈ ((line ++ [(ejected.1, Stamped.mk ejected.2 accepted)]).filter
      fun entry => entry.2.isLive ttl moment).map Stamped.unstamped) :
    binding = ejected ∨ binding ∈ (line.filter fun entry => entry.2.isLive ttl moment).map Stamped.unstamped := by
  rw [List.filter_append, List.map_append, List.mem_append] at member
  rcases member with old | new
  · exact .inr old
  · exact .inl (List.mem_singleton.mp ((List.filter_sublist.map Stamped.unstamped).subset new))

/-- An entry that comes in makes nothing else show. -/
theorem Cascade.shown_before {entry : Key × Value} (cascade : Cascade stamp entry before after events)
    (ttl : after.soft.ttl = before.soft.ttl) {binding : Key × Value}
    (shown : binding ∈ after.primary.toList ∨ binding ∈ after.soft.live moment) :
    binding = entry ∨ binding ∈ before.primary.toList ∨ binding ∈ before.soft.live moment := by
  rw [SoftTier.live_eq_visible, SoftTier.visible_eq, ttl] at shown
  rw [SoftTier.live_eq_visible, SoftTier.visible_eq]
  cases cascade with
  | fits _ primary soft =>
      rw [primary, soft, List.mem_append, List.mem_singleton] at shown
      rcases shown with (stored | new) | live
      · exact .inr (.inl stored)
      · exact .inl new
      · exact .inr (.inr live)
  | dropped primary _ soft =>
      rw [soft] at shown
      rcases shown with kept | live
      · exact ((primary.mem_iff binding).mp (.inr kept)).imp_right .inl
      · exact .inr (.inr live)
  | demoted primary _ soft =>
      rw [soft] at shown
      rcases shown with kept | live
      · exact ((primary.mem_iff binding).mp (.inr kept)).imp_right .inl
      · rcases shown_concat live with same | old
        · exact ((primary.mem_iff binding).mp (.inl same)).imp_right .inl
        · exact .inr (.inr old)
  | @displaced ejected oldest rest primary _ line soft =>
      have kept : (rest.filter fun entry => entry.2.isLive before.soft.ttl moment).Sublist
          ((oldest :: rest).filter fun entry => entry.2.isLive before.soft.ttl moment) :=
        (List.sublist_cons_self oldest rest).filter _
      rw [soft] at shown
      rw [line]
      rcases shown with stored | live
      · exact ((primary.mem_iff binding).mp (.inr stored)).imp_right .inl
      · rcases shown_concat live with same | old
        · exact ((primary.mem_iff binding).mp (.inl same)).imp_right .inl
        · exact .inr (.inr ((kept.map Stamped.unstamped).subset old))

/-- What showed before goes on to show, unless it is told of. -/
theorem Cascade.shows_or_ousts {entry : Key × Value} (cascade : Cascade stamp entry before after events)
    (ttl : after.soft.ttl = before.soft.ttl) {binding : Key × Value}
    (shown : binding ∈ before.primary.toList ∨ binding ∈ before.soft.live moment) :
    (binding ∈ after.primary.toList ∨ binding ∈ after.soft.live moment) ∨
      ∃ event ∈ events, event.Ousts binding.1 binding.2 := by
  rw [SoftTier.live_eq_visible, SoftTier.visible_eq] at shown
  rw [SoftTier.live_eq_visible, SoftTier.visible_eq, ttl]
  cases cascade with
  | fits _ primary soft =>
      rw [primary, soft, List.mem_append]
      exact .inl (shown.imp_left .inl)
  | dropped primary _ soft =>
      rw [soft]
      rcases shown with stored | live
      · rcases (primary.mem_iff binding).mpr (.inr stored) with rfl | kept
        · exact .inr ⟨_, List.mem_singleton_self _, .inl ⟨false, rfl⟩⟩
        · exact .inl (.inl kept)
      · exact .inl (.inr live)
  | demoted primary _ soft =>
      rw [soft, List.filter_append, List.map_append, List.mem_append]
      rcases shown with stored | live
      · rcases (primary.mem_iff binding).mpr (.inr stored) with rfl | kept
        · exact .inr ⟨_, List.mem_singleton_self _, .inl ⟨true, rfl⟩⟩
        · exact .inl (.inl kept)
      · exact .inl (.inr (.inl live))
  | @displaced ejected oldest rest primary _ line soft =>
      rw [line] at shown
      rw [soft, List.filter_append, List.map_append, List.mem_append]
      rcases shown with stored | live
      · rcases (primary.mem_iff binding).mpr (.inr stored) with rfl | kept
        · exact .inr ⟨_, List.mem_cons_self, .inl ⟨true, rfl⟩⟩
        · exact .inl (.inl kept)
      · obtain ⟨held, listed, rfl⟩ := List.mem_map.mp live
        obtain ⟨stored, young⟩ := List.mem_filter.mp listed
        rcases List.mem_cons.mp stored with rfl | later
        · exact .inr ⟨_, List.mem_cons_of_mem _ (List.mem_singleton_self _), .inr rfl⟩
        · exact .inl (.inr (.inl (List.mem_map_of_mem (List.mem_filter.mpr ⟨later, young⟩))))

/-- A key goes on to show what it did, or shows nothing any more, and the log tells that its value was pushed out. -/
def Fades (log : World → List (Event Key Value)) (moment : Moment) (key : Key)
    (before after : Tiers Key Value × World) : Prop :=
  ∃ events, log after.2 = log before.2 ++ events ∧
    (after.1.value? moment key = before.1.value? moment key ∨
      after.1.value? moment key = none ∧
        ∃ value, before.1.value? moment key = some value ∧ ∃ event ∈ events, event.Ousts key value)

theorem Fades.lasting {later : World} (same : log later = log world)
    (shows : after.value? moment key = tiers.value? moment key) :
    Fades log moment key (tiers, world) (after, later) :=
  ⟨[], same.trans (List.append_nil _).symm, .inl shows⟩

theorem Fades.trans {first second third : Tiers Key Value × World} (start : Fades log moment key first second)
    (rest : Fades log moment key second third) : Fades log moment key first third := by
  obtain ⟨events, told, outcome⟩ := start
  obtain ⟨more, added, later⟩ := rest
  refine ⟨events ++ more, by rw [added, told, List.append_assoc], ?_⟩
  rcases later with same | ⟨gone, value, shown, event, listed, ousts⟩
  · rcases outcome with before | ⟨nothing, value, shown, event, listed, ousts⟩
    · exact .inl (same.trans before)
    · exact .inr ⟨same.trans nothing, value, shown, event, List.mem_append_left _ listed, ousts⟩
  · rcases outcome with before | ⟨nothing, -⟩
    · exact .inr ⟨gone, value, before ▸ shown, event, List.mem_append_right _ listed, ousts⟩
    · cases nothing.symm.trans shown

/-- What was done beforehand without being told of, and without changing what the key shows, does not matter. -/
theorem Fades.prepared {prepared outcome : Tiers Key Value × World} (fades : Fades log moment key prepared outcome)
    (same : log prepared.2 = log world) (shows : prepared.1.value? moment key = tiers.value? moment key) :
    Fades log moment key (tiers, world) outcome :=
  (Fades.lasting same shows).trans fades

/-- What is only counted afterwards does not matter either. -/
theorem Fades.counted {start outcome : Tiers Key Value × World} {later : World}
    (fades : Fades log moment key start outcome) (same : log later = log outcome.2) :
    Fades log moment key start (outcome.1, later) :=
  fades.trans (.lasting same rfl)

theorem insertPrimary_fades (logs : host.Logs holds log) (held : holds world) (valid : tiers.Valid)
    (unpinned : tiers.pinned.slot? key = none) (softAbsent : key ∉ tiers.softKeys) (apart : other ≠ key)
    (instant : Instant) (value : Value) :
    Fades log moment other (tiers, world) (insertPrimary host instant key value tiers world).2 := by
  cases present : tiers.primary.peek? key with
  | some old =>
      have shows := PrimaryTier.peek?_insert_present present value other
      rw [if_neg apart] at shows
      rw [PrimaryTier.peek?_eq] at present
      rw [insertPrimary_present present]
      refine .lasting rfl ?_
      rw [value?, shows]
      rfl
  | none =>
      rw [PrimaryTier.peek?_eq] at present
      have settles := valid.settles_insertPrimary logs.keeps instant value world held present softAbsent
      have validAfter := valid.insertPrimary unpinned softAbsent host instant value world
      obtain ⟨events, told, cascade⟩ := insertPrimary_cascades logs held valid present softAbsent instant value
      refine ⟨events, told, ?_⟩
      cases shows : (insertPrimary host instant key value tiers world).2.1.value? moment other with
      | some found =>
          left
          rw [validAfter.value?_eq_some_iff, settles.pinned] at shows
          refine (valid.value?_eq_some_iff.mpr (shows.imp_right fun stored => ?_)).symm
          exact (cascade.shown_before settles.ttl stored).resolve_left fun same => apart (congrArg Prod.fst same)
      | none =>
          cases shown : tiers.value? moment other with
          | none => exact .inl rfl
          | some found =>
              rcases valid.value?_eq_some_iff.mp shown with slot | stored
              · rw [← settles.pinned] at slot
                cases shows.symm.trans (validAfter.value?_eq_some_iff.mpr (.inl slot))
              · rcases cascade.shows_or_ousts settles.ttl stored with kept | ousted
                · cases shows.symm.trans (validAfter.value?_eq_some_iff.mpr (.inr kept))
                · exact .inr ⟨rfl, found, rfl, ousted⟩

theorem put_fades (logs : host.Logs holds log) (held : holds world) (valid : tiers.Valid) (apart : other ≠ key)
    (value : Value) : Fades log moment other (tiers, world) (put host key value tiers world).2 := by
  have kept := logs.keeps.record .putCall held
  have called := logs.record .putCall held
  cases pinned : tiers.pinned.slot? key with
  | some slot =>
      rw [put_of_pinned pinned]
      refine .lasting ((logs.record _ kept).trans called) ?_
      rw [value?_withPin, if_neg apart]
  | none =>
      have inserted := insertPrimary_keeps logs.keeps kept (host.clock (host.record .putCall world)) key value
        (tiers.withoutSoft key)
      have fades : Fades log moment other (tiers.withoutSoft key, host.record .putCall world) _ :=
        insertPrimary_fades logs kept (valid.withoutSoft key) pinned (Valid.absent_withoutSoft tiers key) apart
          (host.clock (host.record .putCall world)) value
      rw [put_of_unpinned pinned]
      refine (fades.prepared called ?_).counted (logs.record _ inserted)
      exact value?_withoutSoft fun same => absurd same apart

theorem putEntry_fades (logs : host.Logs holds log) (held : holds world)
    (stands : ∀ {world}, holds world → host.moment world = moment) (valid : tiers.Valid) (apart : key ≠ entry.key)
    (replaceExisting : Bool) :
    Fades log moment key (tiers, world) (putEntry host replaceExisting entry tiers world) := by
  cases passed : tiers.passesOver replaceExisting moment entry with
  | true =>
      rw [putEntry_of_passed (stands held) passed]
      exact .lasting rfl rfl
  | false =>
      have fades : Fades log moment key (prepare host entry tiers world) _ :=
        put_fades logs (prepare_keeps logs.keeps held entry tiers) (valid.prepare host entry world) apart entry.value
      rw [putEntry_of_copied (stands held) passed]
      exact fades.prepared (prepare_log logs held entry tiers) (value?_prepare logs.keeps held stands entry key)

/-- Copying entries of other keys fades a key, at most. -/
theorem putAll_fades (logs : host.Logs holds log) (held : holds world)
    (stands : ∀ {world}, holds world → host.moment world = moment) (valid : tiers.Valid)
    (apart : key ∉ entries.map Entry.key) (replaceExisting : Bool) :
    Fades log moment key (tiers, world) (putAll host replaceExisting entries tiers world) := by
  induction entries generalizing tiers world with
  | nil => exact .lasting rfl rfl
  | cons entry rest ih =>
      rw [List.map_cons, List.mem_cons, not_or] at apart
      obtain ⟨first, others⟩ := apart
      exact (putEntry_fades logs held stands valid first replaceExisting).trans
        (ih (putEntry_keeps logs.keeps held replaceExisting entry tiers)
          (valid.putEntry host replaceExisting entry world) others)

/-! ### The key of an entry -/

/-- A key shows the value that was put for it, or none if there was no room. -/
theorem value?_put_own (valid : tiers.Valid) (host : Host World Key Value) (key : Key) (value : Value) (world : World)
    (moment : Moment) :
    (put host key value tiers world).2.1.value? moment key = none ∨
      (put host key value tiers world).2.1.value? moment key = some value := by
  cases shows : (put host key value tiers world).2.1.value? moment key with
  | none => exact .inl rfl
  | some found =>
      right
      have stored : (put host key value tiers world).2.1.Stores key found := by
        rcases (valid.put host key value world).value?_eq_some_iff.mp shows with slot | member | live
        · exact .pinned slot
        · exact .primary member
        · obtain ⟨stored, listed, same⟩ := List.mem_map.mp live
          obtain ⟨rfl, rfl⟩ := Prod.mk.inj same
          exact .soft stored.2.stamp (List.mem_filter.mp listed).1
      rcases put_supersedes valid host key value world key found stored with ⟨-, rfl⟩ | ⟨apart, -⟩
      · rfl
      · exact absurd rfl apart

/-- A key that showed nothing shows the value of its entry, or nothing again. -/
theorem putEntry_own (held : holds world) (stands : ∀ {world}, holds world → host.moment world = moment)
    (valid : tiers.Valid) (replaceExisting : Bool) (missing : tiers.value? moment entry.key = none) :
    (putEntry host replaceExisting entry tiers world).1.value? moment entry.key = none ∨
      (putEntry host replaceExisting entry tiers world).1.value? moment entry.key = some entry.value := by
  have copied : tiers.passesOver replaceExisting moment entry = false := by
    rw [passesOver, missing]
    exact Bool.and_false _
  rw [putEntry_of_copied (stands held) copied]
  exact value?_put_own (valid.prepare host entry world) host entry.key entry.value _ moment

/-- A key that shows nothing when the turn of its entry comes shows the value of that entry in the end, or nothing. -/
theorem putAll_own {rest : List (Entry Key Value)} (logs : host.Logs holds log) (held : holds world)
    (stands : ∀ {world}, holds world → host.moment world = moment) (valid : tiers.Valid)
    (behind : entry.key ∉ rest.map Entry.key) (replaceExisting : Bool) (missing : tiers.value? moment entry.key = none) :
    ∃ events, log (putAll host replaceExisting (entry :: rest) tiers world).2 = log world ++ events ∧
      ∀ found, (putAll host replaceExisting (entry :: rest) tiers world).1.value? moment entry.key = some found →
        entry.value = found := by
  have kept := putEntry_keeps logs.keeps held replaceExisting entry tiers
  have written := putEntry_own held stands valid replaceExisting missing
  obtain ⟨events, told⟩ := putEntry_grows logs held replaceExisting entry tiers
  obtain ⟨later, added, ending⟩ :=
    putAll_fades logs kept stands (valid.putEntry host replaceExisting entry world) behind replaceExisting
  refine ⟨events ++ later, added.trans ((congrArg (· ++ later) told).trans (List.append_assoc _ _ _)), ?_⟩
  intro found ends
  rcases ending with same | ⟨gone, -⟩
  · have shows := same.symm.trans ends
    rcases written with gone | brought
    · cases gone.symm.trans shows
    · exact Option.some.inj (brought.symm.trans shows)
  · cases gone.symm.trans ends

/-- What becomes of a value that a key shows while entries are copied that are not to replace it: the key goes on to show
it, or it was pushed out. Then the key shows nothing, unless its own entry came after that and brought another value. -/
structure Spared (log : World → List (Event Key Value)) (host : Host World Key Value) (moment : Moment)
    (entries : List (Entry Key Value)) (key : Key) (value : Value) (before after : Tiers Key Value × World) : Prop where
  told : ∃ events, log after.2 = log before.2 ++ events ∧
    (after.1.value? moment key = some value ∨ ∃ event ∈ events, event.Ousts key value)
  shows : ∀ found, after.1.value? moment key = some found → found = value ∨
    ∃ past entry rest, entries = past ++ entry :: rest ∧ entry.key = key ∧ entry.value = found ∧
      (putAll host false past before.1 before.2).1.value? moment key = none

theorem Fades.spared {start outcome : Tiers Key Value × World} (fades : Fades log moment key start outcome)
    (shown : start.1.value? moment key = some value) : Spared log host moment entries key value start outcome := by
  obtain ⟨events, told, outcome⟩ := fades
  rcases outcome with same | ⟨gone, found, before, ousted⟩
  · rw [shown] at same
    refine ⟨⟨events, told, .inl same⟩, fun found shows => .inl ?_⟩
    exact Option.some.inj (shows.symm.trans same)
  · obtain rfl := Option.some.inj (shown.symm.trans before)
    refine ⟨⟨events, told, .inr ousted⟩, fun found shows => ?_⟩
    cases gone.symm.trans shows

theorem putAll_keeps (keeps : host.Keeps holds) (held : holds world) (replaceExisting : Bool)
    (entries : List (Entry Key Value)) (tiers : Tiers Key Value) :
    holds (putAll host replaceExisting entries tiers world).2 :=
  (operate_simulates keeps.simulates (.putAll entries replaceExisting) tiers ⟨rfl, held⟩).2.2.2

omit [DecidableEq Key] in
/-- Among entries of distinct keys, none before or after an entry has its key. -/
theorem apart_of_distinct {past rest : List (Entry Key Value)}
    (distinct : ((past ++ entry :: rest).map Entry.key).Nodup) :
    entry.key ∉ past.map Entry.key ∧ entry.key ∉ rest.map Entry.key := by
  rw [List.map_append, List.map_cons, List.nodup_append, List.nodup_cons] at distinct
  exact ⟨fun member => distinct.2.2 _ member _ List.mem_cons_self rfl, distinct.2.1.1⟩

/-- Entries that are not to replace anything leave a value alone that shows, unless they push it out first. -/
theorem copying_spares_or_ousts (reachable : tiers.Reachable) (logs : host.Logs holds log) (held : holds world)
    (stands : ∀ {world}, holds world → host.moment world = moment) (distinct : (entries.map Entry.key).Nodup)
    (shown : tiers.value? moment key = some value) :
    Spared log host moment entries key value (tiers, world) (putAll host false entries tiers world) := by
  have valid := reachable.valid
  by_cases own : key ∈ entries.map Entry.key
  · -- until the turn of its entry the key fades, and so it does after that, if it was passed over
    obtain ⟨entry, listed, rfl⟩ := List.mem_map.mp own
    obtain ⟨past, rest, rfl⟩ := List.append_of_mem listed
    obtain ⟨ahead, behind⟩ := apart_of_distinct distinct
    have start := putAll_fades logs held stands valid ahead false
    have kept := putAll_keeps logs.keeps held false past tiers
    have validBetween := valid.putAll host false past world
    rw [putAll_append]
    dsimp only
    generalize between : putAll host false past tiers world = copied at start kept validBetween
    cases shows : copied.1.value? moment entry.key with
    | some found =>
        have passed : copied.1.passesOver false moment entry = true := by
          rw [passesOver, shows]
          rfl
        rw [putAll, putEntry_of_passed (stands kept) passed]
        exact (start.trans (putAll_fades logs kept stands validBetween behind false)).spared shown
    | none =>
        obtain ⟨events, told, outcome⟩ := start
        obtain ⟨later, added, brought⟩ := putAll_own logs kept stands validBetween behind false shows
        constructor
        · refine ⟨events ++ later, added.trans ((congrArg (· ++ later) told).trans (List.append_assoc _ _ _)), .inr ?_⟩
          rcases outcome with same | ⟨-, found, before, event, member, ousts⟩
          · cases shows.symm.trans (same.trans shown)
          · obtain rfl := Option.some.inj (shown.symm.trans before)
            exact ⟨event, List.mem_append_left _ member, ousts⟩
        · intro found ends
          exact .inr ⟨past, entry, rest, rfl, rfl, brought found ends, between ▸ shows⟩
  · exact (putAll_fades logs held stands valid own false).spared shown

/-- A primary tier with room for one entry loses what it shows to the first entry copied, and the second one, of the same
key as what is lost, is then new. -/
theorem copy_follows_what_it_ousted :
    let moment : Moment := ⟨0, 0⟩
    let ledger : Ledger Nat Nat := .start moment
    let tiers := (operate .ledger (.put 1 10) (.empty .fifo 1 0 none) ledger).2.1
    let entries : List (Entry Nat Nat) := [⟨2, 20, .primary⟩, ⟨1, 11, .primary⟩]
    tiers.value? moment 1 = some 10 ∧
      Spared Ledger.events .ledger moment entries 1 10 (tiers, ledger) (putAll .ledger false entries tiers ledger) := by
  intro moment ledger tiers entries
  have reachable : tiers.Reachable := (Reachable.fresh .fifo 1 0 none).step .ledger (.put 1 10) ledger
  have shown : tiers.value? moment 1 = some 10 := by decide +kernel
  exact ⟨shown, copying_spares_or_ousts reachable (Ledger.logs moment) (rfl : ledger.moment = moment) (fun still => still)
    (by decide) shown⟩

/-- So a key that showed a value may show that of an entry, though no entry was to replace anything. -/
theorem copy_takes_the_place_of_a_shown_value :
    let moment : Moment := ⟨0, 0⟩
    let ledger : Ledger Nat Nat := .start moment
    let tiers := (operate .ledger (.put 1 10) (.empty .fifo 1 0 none) ledger).2.1
    let entries : List (Entry Nat Nat) := [⟨2, 20, .primary⟩, ⟨1, 11, .primary⟩]
    let copied := (putAll .ledger false entries tiers ledger).1
    tiers.Reachable ∧ (entries.map Entry.key).Nodup ∧ tiers.value? moment 1 = some 10 ∧
      ¬(copied.value? moment 1 = some 10 ∨ copied.value? moment 1 = none) ∧ copied.value? moment 1 = some 11 := by
  intro moment ledger tiers entries copied
  have reachable : tiers.Reachable := (Reachable.fresh .fifo 1 0 none).step .ledger (.put 1 10) ledger
  have facts : (entries.map Entry.key).Nodup ∧ tiers.value? moment 1 = some 10 ∧
      ¬(copied.value? moment 1 = some 10 ∨ copied.value? moment 1 = none) ∧ copied.value? moment 1 = some 11 := by
    decide +kernel
  exact ⟨reachable, facts⟩

end Tiers

end LayeredCache
