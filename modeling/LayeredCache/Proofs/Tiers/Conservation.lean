import LayeredCache.Proofs.Tiers.Accounts
import LayeredCache.Proofs.Tiers.Record
import LayeredCache.Proofs.Tiers.Serving

/-! Nothing leaves the tiers without a word, and nothing is told of twice. Of the keys that an operation is not about, each
entry that is nowhere any more has one event that names it, and each departure that an event tells of is such an entry;
what may be told of the key of the operation itself is its dead copy, or a new value that neither tier has room for. -/

set_option autoImplicit false

namespace LayeredCache

variable {World Key Value : Type}

/-- The key that an operation is about, if it is about one. -/
def Operation.own? : Operation Key Value → Option Key
  | .put key _ | .get key | .remove key | .pin key | .unpin key => some key
  | .putAll _ _ | .clear | .setCacheSize _ | .setSoftReferenceSize _ | .purgeSoft => none

/-- Whether an operation is neither a series of others nor the end of every entry. -/
def Operation.single : Operation Key Value → Bool
  | .putAll _ _ | .clear => false
  | .put _ _ | .get _ | .remove _ | .pin _ | .unpin _ | .setCacheSize _ | .setSoftReferenceSize _
  | .purgeSoft => true

namespace Tiers

variable [DecidableEq Key] {host : Host World Key Value} {holds : World → Prop}
  {log : World → List (Event Key Value)} {events more : List (Event Key Value)}
  {tiers before between after : Tiers Key Value} {world : World}

/-- The value that an operation gives its key outside the pinned tier. -/
def placed? (tiers : Tiers Key Value) : Operation Key Value → Option Value
  | .put _ value => some value
  | .unpin key => tiers.pinned.value? key
  | .get _ | .remove _ | .pin _ | .putAll _ _ | .clear | .setCacheSize _ | .setSoftReferenceSize _
  | .purgeSoft => none

/-- Nothing but the key of an operation is lost without exactly one event that tells of it, and every departure that an
event tells of is one: of an entry that was stored and is nowhere any more, or of the dead copy that the key of the
operation had, or of its new value where there is no room at all. -/
structure Conserves (operation : Operation Key Value) (moment : Moment) (events : List (Event Key Value))
    (before after : Tiers Key Value) : Prop where
  told : ∀ key value, operation.own? ≠ some key → before.Stores key value → ¬after.Stores key value →
    ∃ departure, (departures events).filter (fun departure => departure.key = key) = [departure] ∧
      departure.Names key value
  gone : ∀ event ∈ events, ∀ departure, event.departure? = some departure →
    operation.own? ≠ some departure.key →
    (∃ value, before.Stores departure.key value ∧ departure.Names departure.key value) ∧
      departure.key ∉ after.pinnedKeys ++ after.primaryKeys ++ after.softKeys
  own : ∀ event ∈ events, ∀ departure, event.departure? = some departure →
    operation.own? = some departure.key →
    (event = .softReclaimed departure.key ∧ departure.key ∈ (before.soft.dead moment).map Prod.fst) ∨
      before.cacheSize = 0 ∧ before.softReferenceSize = 0 ∧
        ∃ value ∈ before.placed? operation, event = .primaryOverflow departure.key value false

theorem Conserves.nothing (operation : Operation Key Value) (moment : Moment) (tiers : Tiers Key Value) :
    Conserves operation moment [] tiers tiers :=
  ⟨fun _ _ _ stored left => absurd stored left, nofun, nofun⟩

/-- What an operation tells on its own, without a purge ahead of it. -/
theorem operate_accounted (logs : host.Logs holds log) (held : holds world) (valid : tiers.Valid)
    {operation : Operation Key Value} (single : operation.single = true) :
    ∃ events, log (operate host operation tiers world).2.2 = log world ++ events ∧
      Accounted operation.own? events tiers (operate host operation tiers world).2.1 ∧
      ∀ key, operation.own? = some key → OnlyEjects key (tiers.placed? operation) tiers events := by
  have keyed : ∀ {key : Key} {placed : Option Value} {outcome : Tiers Key Value × World},
      Accounts log key placed (tiers, world) outcome →
      ∃ events, log outcome.2 = log world ++ events ∧ Accounted (some key) events tiers outcome.1 ∧
        ∀ other, some key = some other → OnlyEjects other placed tiers events := by
    rintro key placed outcome ⟨events, told, account, own⟩
    refine ⟨events, told, account, ?_⟩
    rintro other same
    exact Option.some.inj same ▸ own
  cases operation with
  | put key value => exact keyed (put_accounts logs held valid key value)
  | get key => exact keyed (get_accounts logs held valid key)
  | remove key => exact keyed (remove_accounts logs held tiers key)
  | pin key => exact keyed (pin_accounts logs held tiers key)
  | unpin key => exact keyed (unpin_accounts logs held valid key)
  | setCacheSize capacity =>
      obtain ⟨events, told, accounted⟩ := @setCacheSize_accounted _ _ _ _ _ _ _ tiers world logs held valid capacity
      exact ⟨events, told, accounted, nofun⟩
  | setSoftReferenceSize capacity =>
      exact ⟨_, setSoftReferenceSize_log logs held capacity tiers,
        setSoftReferenceSize_accounted host capacity tiers world, nofun⟩
  | purgeSoft => exact ⟨_, purgeSoft_log logs held tiers, purgeSoft_accounted host tiers world, nofun⟩
  | putAll | clear => cases single

theorem operate_conserves (logs : host.Logs holds log) (held : holds world) (valid : tiers.Valid)
    {operation : Operation Key Value} (single : operation.single = true) :
    ∃ events, log (operate host operation tiers world).2.2 = log world ++ events ∧
      ∀ moment, Conserves operation moment events tiers (operate host operation tiers world).2.1 := by
  obtain ⟨events, told, accounted, own⟩ := operate_accounted logs held valid single
  refine ⟨events, told, fun moment => ⟨?_, ?_, ?_⟩⟩
  · intro key value apart stored left
    exact accounted.told valid apart stored left
  · intro event listed departure departs apart
    exact accounted.gone valid listed departs apart
  · intro event listed departure departs same
    exact .inr (own departure.key same event listed departure departs rfl)

/-- A writer's purge comes on top, which may take the dead copy that the key has. -/
theorem operateHeld_conserves (logs : host.Logs holds log) (held : holds world) (valid : tiers.Valid)
    {operation : Operation Key Value} (single : operation.single = true) :
    ∃ events, log (operateHeld host operation tiers world).2.2 = log world ++ events ∧
      Conserves operation (host.moment world) events tiers (operateHeld host operation tiers world).2.1 := by
  rcases operateHeld_cases host operation tiers world with ⟨rfl, purges⟩ | operates
  · rw [purges]
    obtain ⟨events, told, conserves⟩ := @operate_conserves _ _ _ _ _ _ _ tiers world logs held valid .purgeSoft rfl
    exact ⟨events, told, conserves _⟩
  · rw [operates]
    have purges := purgeSoft_log logs held tiers
    have purged := purgeSoft_accounted host tiers world
    have kept : holds (purgeSoft host tiers world).2.2 :=
      (purgeSoft_simulates logs.keeps.simulates tiers ⟨rfl, held⟩).2.2.2
    obtain ⟨events, told, accounted, own⟩ :=
      operate_accounted logs kept (valid.purgeSoft host world) single
    have whole := (purged.apart operation.own?).trans accounted
    refine ⟨_, told.trans ((congrArg (· ++ events) purges).trans (List.append_assoc _ _ _)), ⟨?_, ?_, ?_⟩⟩
    · intro key value apart stored left
      exact whole.told valid apart stored left
    · intro event listed departure departs apart
      exact whole.gone valid listed departs apart
    · intro event listed departure departs same
      rcases List.mem_append.mp listed with reclaimed | later
      · obtain ⟨entry, dropped, rfl⟩ := List.mem_map.mp reclaimed
        obtain rfl : (⟨entry.1, none⟩ : Departure Key Value) = departure := Option.some.inj departs
        rw [(tiers.soft.purge_eq (host.moment world)).1] at dropped
        obtain ⟨stored, leading, rfl⟩ := List.mem_map.mp dropped
        refine .inl ⟨rfl, List.mem_map_of_mem (List.mem_filter.mpr ⟨?_, ?_⟩)⟩
        · exact (List.takeWhile_sublist _).subset leading
        · have dead : (!tiers.soft.isLive (host.moment world) stored) = true :=
            @List.mem_takeWhile_imp _ (fun entry => !tiers.soft.isLive (host.moment world) entry) _ _ leading
          exact dead
      · have ejected := own departure.key same event later departure departs rfl
        have unchanged : (purgeSoft host tiers world).2.1.placed? operation = tiers.placed? operation := by
          rw [purgeSoft_snd]
          cases operation <;> rfl
        rw [unchanged, purgeSoft_snd] at ejected
        exact .inr ejected

/-- Operations one after another, each of which obeys the law. Each begins with the tiers and the world that the one
before it left, and tells what the log has grown by. -/
inductive ConservesEach (host : Host World Key Value) (log : World → List (Event Key Value)) :
    List (Operation Key Value) → Tiers Key Value × World → List (Event Key Value) → Tiers Key Value × World → Prop where
  | done (state : Tiers Key Value × World) : ConservesEach host log [] state [] state
  | step {operation : Operation Key Value} {operations : List (Operation Key Value)} {tiers : Tiers Key Value}
      {world : World} {events more : List (Event Key Value)} {final : Tiers Key Value × World}
      (told : log (operate host operation tiers world).2.2 = log world ++ events)
      (first : Conserves operation (host.moment world) events tiers (operate host operation tiers world).2.1)
      (rest : ConservesEach host log operations (operate host operation tiers world).2 more final) :
      ConservesEach host log (operation :: operations) (tiers, world) (events ++ more) final

namespace ConservesEach

variable {operations later : List (Operation Key Value)} {state next final : Tiers Key Value × World}

theorem append (first : ConservesEach host log operations state events next)
    (second : ConservesEach host log later next more final) :
    ConservesEach host log (operations ++ later) state (events ++ more) final := by
  induction first with
  | done => exact second
  | step told conserves _ ih =>
      rw [List.append_assoc]
      exact .step told conserves (ih second)

/-- The log has grown by what the operations told. -/
theorem log_eq (each : ConservesEach host log operations state events final) :
    log final.2 = log state.2 ++ events := by
  induction each with
  | done => exact (List.append_nil _).symm
  | step told _ _ ih => rw [ih, told, List.append_assoc]

theorem of_single (logs : host.Logs holds log) (held : holds world) (valid : tiers.Valid)
    (operation : Operation Key Value) (single : operation.single = true) :
    ∃ events, ConservesEach host log [operation] (tiers, world) events (operate host operation tiers world).2 := by
  obtain ⟨events, told, conserves⟩ := operate_conserves logs held valid single
  exact ⟨events ++ [], .step told (conserves _) (.done _)⟩

end ConservesEach

/-- The pins and puts that a copied entry comes to. -/
def writes (entry : Entry Key Value) : List (Operation Key Value) :=
  if entry.tier = .pinned then [.pin entry.key, .put entry.key entry.value] else [.put entry.key entry.value]

theorem putEntry_conserves (logs : host.Logs holds log) (held : holds world) (valid : tiers.Valid)
    {replaceExisting : Bool} {entry : Entry Key Value}
    (written : ¬(!replaceExisting && tiers.containsKey (host.moment world) entry.key) = true) :
    ∃ events, ConservesEach host log (writes entry) (tiers, world) events
      (putEntry host replaceExisting entry tiers world) := by
  rw [putEntry, if_neg written, writes]
  by_cases pinned : entry.tier = .pinned
  · rw [if_pos pinned, if_pos pinned]
    have kept := (pin_simulates logs.keeps.simulates entry.key tiers ⟨rfl, held⟩).2.2.2
    obtain ⟨first, pins⟩ := ConservesEach.of_single logs held valid (.pin entry.key) rfl
    obtain ⟨second, puts⟩ := ConservesEach.of_single logs kept (valid.pin host entry.key world)
      (.put entry.key entry.value) rfl
    exact ⟨first ++ second, pins.append puts⟩
  · rw [if_neg pinned, if_neg pinned]
    exact ConservesEach.of_single logs held valid _ rfl

/-- A copy is the pins and puts of the entries that it does not pass over, one after another, and nothing besides. -/
theorem putAll_conserves (logs : host.Logs holds log) (held : holds world) (valid : tiers.Valid)
    (replaceExisting : Bool) (entries : List (Entry Key Value)) :
    ∃ events, ConservesEach host log ((copied host replaceExisting entries tiers world).flatMap writes) (tiers, world)
      events (putAll host replaceExisting entries tiers world) := by
  induction entries generalizing tiers world with
  | nil => exact ⟨[], .done _⟩
  | cons entry rest ih =>
      have kept := (putEntry_simulates logs.keeps.simulates replaceExisting entry tiers ⟨rfl, held⟩).2.2
      obtain ⟨later, copies⟩ := ih kept (valid.putEntry host replaceExisting entry world)
      simp only [putAll, copied]
      split
      next present =>
        rw [putEntry, if_pos present] at copies ⊢
        exact ⟨later, copies⟩
      next absent =>
        obtain ⟨events, written⟩ := putEntry_conserves logs held valid absent
        exact ⟨events ++ later, written.append copies⟩

/-- What a writer that copies entries comes to: its purge, and then the pins and puts of the entries that the copy does
not pass over. -/
def copySteps (host : Host World Key Value) (replaceExisting : Bool) (entries : List (Entry Key Value))
    (tiers : Tiers Key Value) (world : World) : List (Operation Key Value) :=
  let (_, purged, after) := purgeSoft host tiers world
  .purgeSoft :: (copied host replaceExisting entries purged after).flatMap writes

theorem copySteps_conserve (logs : host.Logs holds log) (held : holds world) (valid : tiers.Valid)
    (replaceExisting : Bool) (entries : List (Entry Key Value)) :
    ∃ events, ConservesEach host log (copySteps host replaceExisting entries tiers world) (tiers, world) events
      (operateHeld host (.putAll entries replaceExisting) tiers world).2 := by
  have kept : holds (purgeSoft host tiers world).2.2 :=
    (purgeSoft_simulates logs.keeps.simulates tiers ⟨rfl, held⟩).2.2.2
  obtain ⟨first, purges⟩ := ConservesEach.of_single logs held valid .purgeSoft rfl
  obtain ⟨later, copies⟩ := putAll_conserves logs kept (valid.purgeSoft host world) replaceExisting entries
  exact ⟨first ++ later, purges.append copies⟩

/-- What the events told of an operation say of the tiers and the world before and after it. -/
structure Conserved (host : Host World Key Value) (log : World → List (Event Key Value))
    (operation : Operation Key Value) (tiers : Tiers Key Value) (world : World) (events : List (Event Key Value))
    (after : Tiers Key Value × World) : Prop where
  single : operation.single = true → Conserves operation (host.moment world) events tiers after.1
  copy : ∀ entries replaceExisting, operation = .putAll entries replaceExisting →
    ConservesEach host log (copySteps host replaceExisting entries tiers world) (tiers, world) events after

/-- Whatever a writer does for an operation, its events account for it. -/
theorem operateHeld_conserved (logs : host.Logs holds log) (held : holds world) (valid : tiers.Valid)
    (operation : Operation Key Value) :
    ∃ events, log (operateHeld host operation tiers world).2.2 = log world ++ events ∧
      Conserved host log operation tiers world events (operateHeld host operation tiers world).2 := by
  cases single : operation.single with
  | true =>
      obtain ⟨events, told, conserves⟩ := @operateHeld_conserves _ _ _ _ _ _ _ tiers world logs held valid _ single
      refine ⟨events, told, fun _ => conserves, ?_⟩
      rintro entries replaceExisting rfl
      cases single
  | false =>
      cases operation with
      | putAll entries replaceExisting =>
          obtain ⟨events, copies⟩ := copySteps_conserve logs held valid replaceExisting entries
          refine ⟨events, copies.log_eq, nofun, ?_⟩
          rintro _ _ ⟨⟩
          exact copies
      | clear =>
          have kept : holds (purgeSoft host tiers world).2.2 :=
            (purgeSoft_simulates logs.keeps.simulates tiers ⟨rfl, held⟩).2.2.2
          exact ⟨_, (logs.record .clear kept).trans (purgeSoft_log logs held tiers), nofun, nofun⟩
      | _ => cases single

end Tiers

end LayeredCache
