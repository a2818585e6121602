import LayeredCache.Proofs.Fleet.Access

/-! Every cache of a fleet stays sound, whatever its listeners do. A call leaves the holds as it found them, so that the
caches held by the operations in progress are out of reach for the calls of listeners, and it changes tiers by
operations on them alone. -/

set_option autoImplicit false

namespace LayeredCache.Fleet

variable {Key Value Result : Type} [DecidableEq Key] {holds : Nat → Option Hold}
  {fleet : Fleet Key Value} {number : Nat} {cache : Cache Key Value}

/-- The caches are held as given, their tiers are what operations lead to, and no audit found anything. -/
structure Kept (holds : Nat → Option Hold) (fleet : Fleet Key Value) : Prop where
  held : ∀ number : Nat, fleet.caches[number]?.map Cache.hold = holds number
  reachable : ∀ (number : Nat) (cache : Cache Key Value),
    fleet.caches[number]? = some cache → cache.tiers.Reachable
  audits : ∀ handle finding,
    Note.answered (.mk handle .audit) (.audit finding) ∈ fleet.journal → finding = .ok ()

/-- The hold of one cache changed, if there is such a cache. -/
def reheld (holds : Nat → Option Hold) (number : Nat) (change : Hold → Hold) : Nat → Option Hold :=
  fun other => if number = other then (holds other).map change else holds other

theorem reheld_reheld (holds : Nat → Option Hold) (number : Nat) (first second : Hold → Hold) :
    reheld (reheld holds number first) number second =
      reheld holds number fun hold => second (first hold) := by
  funext other
  by_cases same : number = other
  · simp only [reheld, if_pos same, Option.map_map]
    rfl
  · simp only [reheld, if_neg same]

theorem reheld_same {change : Hold → Hold}
    (unchanged : ∀ hold, holds number = some hold → change hold = hold) :
    reheld holds number change = holds := by
  funext other
  by_cases same : number = other
  · subst same
    rw [reheld, if_pos rfl]
    cases held : holds number with
    | none => rfl
    | some hold => rw [Option.map_some, unchanged hold held]
  · rw [reheld, if_neg same]

theorem Kept.adjust (kept : Kept holds fleet) (number : Nat) (change : Cache Key Value → Cache Key Value)
    (hold : Hold → Hold) (held : ∀ cache, (change cache).hold = hold cache.hold)
    (tiers : ∀ cache, cache.tiers.Reachable → (change cache).tiers.Reachable) :
    Kept (reheld holds number hold) (fleet.adjust number change) where
  held other := by
    rw [caches_adjust, reheld, ← kept.held other]
    split
    · rw [Option.map_map, Option.map_map]
      exact congrArg (Option.map · _) (funext held)
    · rfl
  reachable other cache found := by
    rw [caches_adjust] at found
    split at found
    · obtain ⟨stored, present, rfl⟩ := Option.map_eq_some_iff.mp found
      exact tiers stored (kept.reachable other stored present)
    · exact kept.reachable other cache found
  audits := kept.audits

theorem Kept.adjust_apart (kept : Kept holds fleet) (number : Nat)
    {change : Cache Key Value → Cache Key Value} (held : ∀ cache, (change cache).hold = cache.hold)
    (tiers : ∀ cache, cache.tiers.Reachable → (change cache).tiers.Reachable) :
    Kept holds (fleet.adjust number change) := by
  have adjusted := kept.adjust number change id held tiers
  rwa [reheld_same fun _ _ => id_eq _] at adjusted

theorem Kept.record (kept : Kept holds fleet) (number : Nat) (recording : Metrics.Recording) :
    Kept holds (fleet.adjust number (Cache.record recording)) :=
  kept.adjust_apart number (fun _ => rfl) fun _ reachable => reachable

theorem Kept.note_event (kept : Kept holds fleet) (number : Nat) (event : Event Key Value) :
    Kept holds (fleet.note (.event number event)) where
  held := kept.held
  reachable := kept.reachable
  audits handle finding noted := by
    rcases List.mem_append.mp noted with before | new
    · exact kept.audits handle finding before
    · cases List.mem_singleton.mp new

theorem Kept.note_answered (kept : Kept holds fleet) (call : Call Key Value) (reply : Reply Key Value)
    (sound : ∀ handle finding, call = .mk handle .audit → reply = .audit finding → finding = .ok ()) :
    Kept holds (fleet.note (.answered call reply)) where
  held := kept.held
  reachable := kept.reachable
  audits handle finding noted := by
    rcases List.mem_append.mp noted with before | new
    · exact kept.audits handle finding before
    · obtain ⟨same, answered⟩ := Note.answered.inj (List.mem_singleton.mp new)
      exact sound handle finding same.symm answered.symm

/-- The calls that answer an event leave the fleet as it should be kept. -/
def Orderly (react : Reaction Key Value) : Prop :=
  ∀ {holds : Nat → Option Hold} (calls : List (Call Key Value)) {fleet : Fleet Key Value},
    Kept holds fleet → Kept holds (react calls fleet)

variable {react : Reaction Key Value}

theorem host_keeps (orderly : Orderly react) (number : Nat) (listener : Option (Listener Key Value)) :
    (host react number listener).Keeps (Kept holds) where
  record recording _ kept := kept.record number recording
  notify event fleet kept := by
    cases listener with
    | none => exact kept
    | some listener =>
        simp only [host]
        refine orderly _ ?_
        split
        · exact kept.note_event number event
        · exact kept

/-- What a writer does may change the tiers by operations only. -/
def Faithful (body : Host (Fleet Key Value) Key Value → Tiers Key Value → Fleet Key Value →
    Result × Tiers Key Value × Fleet Key Value) : Prop :=
  ∀ {holds : Nat → Option Hold} {host : Host (Fleet Key Value) Key Value} {tiers : Tiers Key Value}
    {fleet : Fleet Key Value}, host.Keeps (Kept holds) → tiers.Reachable → Kept holds fleet →
    (body host tiers fleet).2.1.Reachable ∧ Kept holds (body host tiers fleet).2.2

theorem CarriesOut.faithful {operation : Operation Key Value} {wrap : Result → Answer Value}
    {body : Host (Fleet Key Value) Key Value → Tiers Key Value → Fleet Key Value →
      Result × Tiers Key Value × Fleet Key Value}
    (carries : CarriesOut operation wrap body) : Faithful body := by
  intro holds host tiers fleet keeps reachable kept
  have outcome := carries host tiers fleet
  have same : (body host tiers fleet).2 = (Tiers.operate host operation tiers fleet).2 := by
    rw [outcome]
    rfl
  obtain ⟨-, -, -, after⟩ := Tiers.operate_simulates keeps.simulates operation tiers ⟨rfl, kept⟩
  rw [same]
  exact ⟨reachable.step host operation fleet, after⟩

theorem Faithful.purgingFirst {body : Host (Fleet Key Value) Key Value → Tiers Key Value →
      Fleet Key Value → Result × Tiers Key Value × Fleet Key Value}
    (faithful : Faithful body) : Faithful (purgingFirst body) := by
  intro holds host tiers fleet keeps reachable kept
  have purges : @CarriesOut Key Value Nat _ .purgeSoft .count
      fun host tiers fleet => tiers.purgeSoft host fleet := fun _ _ _ => rfl
  obtain ⟨purged, after⟩ := purges.faithful keeps reachable kept
  exact faithful keeps purged after

theorem refuse_kept (kept : Kept holds fleet) (number : Nat) (cache : Cache Key Value)
    (operation : String) (mode : LockMode) :
    Kept holds (@refuse Key Value Result _ number cache operation mode fleet).2 :=
  kept.record number .lockTimeout

theorem exclusively_kept (orderly : Orderly react) (kept : Kept holds fleet)
    (found : fleet.caches[number]? = some cache) (operation : String)
    {body : Host (Fleet Key Value) Key Value → Tiers Key Value → Fleet Key Value →
      Result × Tiers Key Value × Fleet Key Value} (faithful : Faithful body) :
    Kept holds (exclusively react number cache operation body fleet).2 := by
  have reachable := kept.reachable number cache found
  rw [exclusively]
  split
  next admitted =>
    have free : ∀ hold, holds number = some hold → hold = .free := by
      intro hold held
      rw [← kept.held number, found] at held
      rw [← Option.some.inj held]
      revert admitted
      cases cache.hold with
      | free => exact fun _ => rfl
      | held mode => exact fun admitted => nomatch mode, admitted
    have held := kept.adjust number (fun cache => { cache with hold := .held .exclusive })
      (fun _ => .held .exclusive) (fun _ => rfl) fun _ reachable => reachable
    obtain ⟨after, worked⟩ := faithful (host_keeps orderly number cache.listener) reachable held
    have released := worked.adjust number (fun cache => { cache with tiers := _, hold := .free })
      (fun _ => .free) (fun _ => rfl) fun _ _ => after
    rw [reheld_reheld, reheld_same fun hold held => (free hold held).symm] at released
    exact released
  next => exact refuse_kept kept number cache operation .exclusive

theorem write_kept (orderly : Orderly react) (kept : Kept holds fleet)
    (found : fleet.caches[number]? = some cache) (operation : String)
    {body : Host (Fleet Key Value) Key Value → Tiers Key Value → Fleet Key Value →
      Result × Tiers Key Value × Fleet Key Value} (faithful : Faithful body) :
    Kept holds (write react number cache operation body fleet).2 :=
  exclusively_kept orderly kept found operation faithful.purgingFirst

theorem read_kept (kept : Kept holds fleet) (number : Nat) (cache : Cache Key Value)
    (operation : String) (result : Result) :
    Kept holds (read number cache operation result fleet).2 := by
  rw [read]
  split
  · exact kept
  · exact refuse_kept kept number cache operation .shared

theorem get_kept (orderly : Orderly react) (kept : Kept holds fleet)
    (found : fleet.caches[number]? = some cache) (key : Key) :
    Kept holds (get react number cache key fleet).2 := by
  have looked := (Tiers.lookup_simulates (host_keeps orderly number cache.listener).simulates key
    cache.tiers ⟨rfl, kept⟩).2.2
  rw [get]
  split
  · split
    next value after hit =>
      rw [hit] at looked
      exact looked
    next after miss =>
      rw [miss] at looked
      exact looked
    next after needed =>
      rw [Tiers.lookup_of_needsWrite (congrArg Prod.fst needed)] at needed
      obtain ⟨-, rfl⟩ := Prod.mk.inj needed
      have gets : CarriesOut (.get key) .value fun host (tiers : Tiers Key Value) => tiers.get host key :=
        fun _ _ _ => rfl
      exact write_kept orderly kept found "get" gets.faithful
  · exact refuse_kept kept number cache "get" .shared

theorem putAll_kept (orderly : Orderly react) (kept : Kept holds fleet)
    (found : fleet.caches[number]? = some cache) (sourceNumber : Nat) (source : Cache Key Value)
    (replaceExisting : Bool) :
    Kept holds (putAll react number cache sourceNumber source replaceExisting fleet).2 := by
  rw [putAll]
  split
  · have copies : CarriesOut (.putAll (source.tiers.entries (fleet.moment source)) replaceExisting)
        (fun _ => .done) fun host (tiers : Tiers Key Value) world =>
          ((), tiers.putAll host replaceExisting (source.tiers.entries (fleet.moment source)) world) :=
      fun _ _ _ => rfl
    exact write_kept orderly kept found "put_all" copies.faithful
  · exact refuse_kept kept sourceNumber source "put_all" .shared

theorem searchValue_kept [BEq Value] (kept : Kept holds fleet)
    (found : fleet.caches[number]? = some cache) (value : Value)
    {atFirst : Fleet Key Value → Fleet Key Value}
    (orderly : ∀ {holds : Nat → Option Hold} {fleet : Fleet Key Value},
      Kept holds fleet → Kept holds (atFirst fleet)) :
    Kept holds (searchValue react number cache value atFirst fleet).2 := by
  have searched : ∀ {holds : Nat → Option Hold} {fleet : Fleet Key Value}, Kept holds fleet →
      Kept holds (cache.tiers.searchValue (host react number cache.listener) atFirst value fleet).2 := by
    intro holds fleet kept
    have once := orderly kept
    cases early : (cache.tiers.pinned.toList ++ cache.tiers.primary.toList).isEmpty with
    | false =>
        simp only [Tiers.searchValue, early, Bool.false_eq_true, ↓reduceIte, Bool.false_and]
        split
        · exact once
        · exact once
    | true =>
        simp only [Tiers.searchValue, early, ↓reduceIte, Bool.true_and]
        split
        · exact kept
        · dsimp only
          split
          · exact once
          · exact kept
  rw [searchValue]
  split
  · have held := kept.adjust number (fun cache => { cache with hold := .held .shared })
      (fun _ => .held .shared) (fun _ => rfl) fun _ reachable => reachable
    have released := (searched held).adjust number (fun other => { other with hold := cache.hold })
      (fun _ => cache.hold) (fun _ => rfl) fun _ reachable => reachable
    have same : ∀ hold, holds number = some hold → cache.hold = hold := by
      intro hold held
      rw [← kept.held number, found] at held
      exact Option.some.inj held
    rw [reheld_reheld, reheld_same same] at released
    exact released
  · exact refuse_kept kept number cache "contains_value" .shared

theorem reply_kept (wrap : Result → Reply Key Value)
    {outcome : Except LockTimeout Result × Fleet Key Value} (kept : Kept holds outcome.2) :
    Kept holds (reply wrap outcome).2 := by
  obtain ⟨answer, after⟩ := outcome
  cases answer with
  | ok result => exact kept
  | error timeout => exact kept

/-- An audit that is answered finds nothing. -/
theorem audit_reply [BEq Value] (kept : Kept holds fleet) (handle : Nat)
    {finding : Except Corruption Unit}
    (answered : (perform react (.mk handle .audit) fleet).1 = .audit finding) : finding = .ok () := by
  simp only [perform] at answered
  split at answered
  next => cases answered
  next number cache found =>
    have audited := (kept.reachable number cache (find?_eq_some_iff.mp found).2).valid.audit_eq_ok
    simp only [read] at answered
    split at answered
    · exact (Reply.audit.inj answered).symm.trans audited
    · cases answered

/-- A call keeps the fleet, if the calls made during its search do. -/
theorem perform_kept_of_during [BEq Value] (orderly : Orderly react) (kept : Kept holds fleet)
    (handle : Nat) (action : Action Key Value)
    (during : ∀ value calls, action = .containsValue value calls →
      ∀ {holds : Nat → Option Hold} {fleet : Fleet Key Value},
        Kept holds fleet → Kept holds (performEach react calls fleet)) :
    Kept holds (perform react (.mk handle action) fleet).2 := by
  rw [perform]
  split
  next => exact kept
  next number cache located =>
    have found := (find?_eq_some_iff.mp located).2
    cases action with
    | put key value | putShared key value =>
        exact reply_kept _ (write_kept orderly kept found _
          (@CarriesOut.faithful _ _ _ _ (.put key value) .value _ fun _ _ _ => rfl))
    | get key => exact reply_kept _ (get_kept orderly kept found key)
    | remove key =>
        exact reply_kept _ (write_kept orderly kept found _
          (@CarriesOut.faithful _ _ _ _ (.remove key) .value _ fun _ _ _ => rfl))
    | pin key =>
        exact reply_kept _ (write_kept orderly kept found _
          (@CarriesOut.faithful _ _ _ _ (.pin key) .flag _ fun _ _ _ => rfl))
    | unpin key =>
        exact reply_kept _ (write_kept orderly kept found _
          (@CarriesOut.faithful _ _ _ _ (.unpin key) .flag _ fun _ _ _ => rfl))
    | containsValue value calls =>
        exact reply_kept _ (searchValue_kept kept found value (during value calls rfl))
    | putAll source replaceExisting =>
        dsimp only
        split
        · exact kept
        · exact reply_kept _ (putAll_kept orderly kept found _ _ replaceExisting)
    | clear =>
        exact reply_kept _ (write_kept orderly kept found _
          (@CarriesOut.faithful _ _ _ _ .clear (fun _ => .done) _ fun _ _ _ => rfl))
    | setCacheSize capacity =>
        exact reply_kept _ (write_kept orderly kept found _
          (@CarriesOut.faithful _ _ _ _ (.setCacheSize capacity) (fun _ => .done) _ fun _ _ _ => rfl))
    | setSoftReferenceSize capacity =>
        exact reply_kept _ (write_kept orderly kept found _
          (@CarriesOut.faithful _ _ _ _ (.setSoftReferenceSize capacity) (fun _ => .done) _
            fun _ _ _ => rfl))
    | purgeSoft =>
        exact reply_kept _ (exclusively_kept orderly kept found _
          (@CarriesOut.faithful _ _ _ _ .purgeSoft .count _ fun _ _ _ => rfl))
    | setListener listener =>
        have idle : Faithful fun (_ : Host (Fleet Key Value) Key Value) tiers fleet => ((), tiers, fleet) :=
          fun _ reachable kept => ⟨reachable, kept⟩
        have written := write_kept orderly kept found "set_listener" idle
        refine reply_kept _ ?_
        split
        next after done =>
          rw [done] at written
          exact written.adjust_apart number (fun _ => rfl) fun _ reachable => reachable
        next => exact written
    | containsKey | isPinned | size | isEmpty | cacheSize | softReferenceSize | pinnedKeys | keys
    | entries | audit | metrics | exposition => exact reply_kept _ (read_kept kept _ _ _ _)
    | concurrencyLevel | isLru | evictionOrder | lockTimeout | epoch | debug | debugIndented => exact kept
    | reclaim | resetMetrics =>
        exact kept.adjust_apart number (fun _ => rfl) fun _ reachable => reachable
    | clone => exact ⟨kept.held, kept.reachable, kept.audits⟩
    | advance nanoseconds => exact ⟨kept.held, kept.reachable, kept.audits⟩

mutual

theorem perform_kept [BEq Value] (orderly : Orderly react) :
    (call : Call Key Value) → ∀ {holds : Nat → Option Hold} {fleet : Fleet Key Value},
      Kept holds fleet → Kept holds (perform react call fleet).2
  | .mk handle action, _, _, kept => perform_kept_of_during orderly kept handle action
      fun _ calls searches _ _ kept =>
        have : sizeOf calls < sizeOf (Call.mk handle action) := by
          rw [searches, Call.mk.sizeOf_spec, Action.containsValue.sizeOf_spec]
          omega
        performEach_kept orderly calls kept
termination_by call => sizeOf call

theorem performEach_kept [BEq Value] (orderly : Orderly react) :
    (calls : List (Call Key Value)) → ∀ {holds : Nat → Option Hold} {fleet : Fleet Key Value},
      Kept holds fleet → Kept holds (performEach react calls fleet)
  | [], _, _, kept => by
      rw [performEach]
      exact kept
  | call :: rest, _, _, kept => by
      rw [performEach]
      refine performEach_kept orderly rest ((perform_kept orderly call kept).note_answered call _ ?_)
      rintro handle finding rfl answered
      exact audit_reply kept handle answered
termination_by calls => sizeOf calls

end

theorem reactTo_orderly [BEq Value] (depth : Nat) : Orderly (@reactTo Key Value _ _ depth) := by
  induction depth with
  | zero => exact fun _ _ kept => kept
  | succ depth ih => exact fun calls _ kept => performEach_kept ih calls kept

theorem call_kept [BEq Value] (kept : Kept holds fleet) (request : Call Key Value) :
    Kept holds (fleet.call request).2 :=
  perform_kept (reactTo_orderly fleet.caches.size) request kept

theorem callAll_kept [BEq Value] (kept : Kept holds fleet) (requests : List (Call Key Value)) :
    Kept holds (fleet.callAll requests) := by
  induction requests generalizing fleet with
  | nil => exact kept
  | cons request rest ih => exact ih (call_kept kept request)

theorem ofSettings_kept (settings : List Settings) :
    Kept (fun number => settings[number]?.map fun _ => .free)
      (ofSettings settings : Fleet Key Value) where
  held number := by
    rw [ofSettings, List.getElem?_toArray, List.getElem?_map, Option.map_map]
    rfl
  reachable number cache found := by
    rw [ofSettings, List.getElem?_toArray, List.getElem?_map] at found
    obtain ⟨chosen, -, rfl⟩ := Option.map_eq_some_iff.mp found
    exact .fresh _ _ _ _
  audits _ _ noted := nomatch noted

theorem audit_of_free [BEq Value] {handle : Nat} (found : fleet.find? handle = some (number, cache))
    (reachable : cache.tiers.Reachable) (free : cache.hold = .free) :
    (fleet.call (.mk handle .audit)).1 = .audit (.ok ()) := by
  rw [call, perform, found]
  simp only [read, free, reply, reachable.valid.audit_eq_ok, Hold.admits, ↓reduceIte]

/-- Whatever happens between and inside operations, tiers are sound; so are the caches of a fleet after any calls,
whatever their listeners answer, and every audit that gets through to a cache, asked by a listener or from outside,
finds nothing. -/
theorem always_sound [BEq Value] :
    (∀ tiers : Tiers Key Value, tiers.Reachable → tiers.Sound) ∧
      ∀ (settings : List Settings) (requests : List (Call Key Value)),
        let fleet := (ofSettings settings).callAll requests
        (∀ cache ∈ fleet.caches, cache.tiers.Sound) ∧
          (∀ handle number cache, fleet.find? handle = some (number, cache) →
            (fleet.call (.mk handle .audit)).1 = .audit (.ok ())) ∧
          ∀ handle finding,
            Note.answered (.mk handle .audit) (.audit finding) ∈ fleet.journal → finding = .ok () := by
  refine ⟨fun tiers reachable => reachable.valid.sound, ?_⟩
  intro settings requests fleet
  have kept := callAll_kept (ofSettings_kept settings) requests
  refine ⟨?_, ?_, kept.audits⟩
  · intro cache member
    obtain ⟨number, found⟩ := Array.mem_iff_getElem?.mp member
    exact (kept.reachable number cache found).valid.sound
  · intro handle number cache located
    have found := (find?_eq_some_iff.mp located).2
    refine audit_of_free located (kept.reachable number cache found) ?_
    have held := kept.held number
    rw [found] at held
    obtain ⟨chosen, -, free⟩ := Option.map_eq_some_iff.mp held.symm
    exact free.symm

/-- A key is pinned without a value, the primary tier is full and the soft one holds a dead entry, and a listener has had
another cache audited in the meantime. -/
theorem sound_amid_audits :
    let auditor : Listener Nat Nat := .mk (fun _ => true) fun _ _ => [.mk 1 .audit]
    let settings : List Settings := [{ cacheSize := 1, softReferenceSize := 1 }, { cacheSize := 2 }]
    let requests : List (Call Nat Nat) := [.mk 1 (.put 7 70), .mk 0 (.setListener (some auditor)), .mk 0 (.pin 5),
      .mk 0 (.put 1 10), .mk 0 (.put 2 20), .mk 0 .reclaim]
    let fleet := (ofSettings settings).callAll requests
    ∃ cache, fleet.find? 0 = some (0, cache) ∧ cache.tiers.pinnedKeys = [5] ∧ cache.tiers.primaryKeys = [2] ∧
      cache.tiers.softKeys = [1] ∧ cache.tiers.size (fleet.moment cache) = 1 ∧
      (∀ cache ∈ fleet.caches, cache.tiers.Sound) ∧
      (Tiers.operate (Host.still (fleet.moment cache)) (.get 1) cache.tiers .zero).2.1.Sound ∧
      (fleet.call (.mk 0 .audit)).1 = .audit (.ok ()) ∧
      ∃ finding, Note.answered (.mk 1 .audit) (.audit finding) ∈ fleet.journal ∧ finding = .ok () := by
  intro auditor settings requests fleet
  have stored : (fleet.find? 0).map (fun place => (place.1, place.2.tiers.pinnedKeys, place.2.tiers.primaryKeys,
      place.2.tiers.softKeys, place.2.tiers.size (fleet.moment place.2))) = some (0, [5], [2], [1], 1) := by
    decide +kernel
  obtain ⟨⟨number, cache⟩, located, shown⟩ := Option.map_eq_some_iff.mp stored
  simp only [Prod.mk.injEq] at shown
  obtain ⟨rfl, pinned, primary, soft, size⟩ := shown
  have audited : (fleet.journal.any fun note =>
      match note with
      | .answered (.mk 1 .audit) (.audit _) => true
      | _ => false) = true := by decide +kernel
  obtain ⟨note, listed, asked⟩ := List.any_eq_true.mp audited
  have kept := callAll_kept (ofSettings_kept settings) requests
  have reachable : cache.tiers.Reachable := kept.reachable 0 cache (find?_eq_some_iff.mp located).2
  obtain ⟨operations, runs⟩ := @always_sound Nat Nat _ _
  obtain ⟨sound, audits, noted⟩ := runs settings requests
  refine ⟨cache, located, pinned, primary, soft, size, sound, operations _ (.step reachable _ _ _),
    audits 0 0 cache located, ?_⟩
  split at asked
  next finding => exact ⟨finding, listed, noted 1 finding listed⟩
  next => cases asked

end LayeredCache.Fleet
