import LayeredCache.Proofs.Fleet.Passing
import LayeredCache.Proofs.Tiers.Visibility

/-! Values do not come back by themselves. Among caches that copy from none but each other, a key that none of them shows
stays hidden from all of them until it is put into one of them, whatever else is called, from outside or by listeners. -/

set_option autoImplicit false

namespace LayeredCache

variable {Key Value : Type} [DecidableEq Key]

/-- Whether a note tells of no put of a key into a territory of caches, nor of a copy into it from elsewhere, where
handles belong to caches as they are numbered. -/
def Note.spares (territory : Nat → Bool) (key : Key) (handles : List Nat) : Note Key Value → Bool
  | .answered (.mk handle (.put written _)) (.value _) | .answered (.mk handle (.putShared written _)) (.value _) =>
      written ≠ key || !handles[handle]?.any territory
  | .answered (.mk handle (.putAll source _)) .done =>
      !handles[handle]?.any territory || handles[source]?.all territory
  | _ => true

theorem Note.spares_earlier {territory : Nat → Bool} {key : Key} {handles more : List Nat}
    {note : Note Key Value} (grown : handles <+: more) (spares : note.spares territory key more = true) :
    note.spares territory key handles = true := by
  have resolve : ∀ {handle number : Nat}, handles[handle]? = some number → more[handle]? = some number := by
    intro handle number found
    obtain ⟨rest, rfl⟩ := grown
    exact (List.getElem?_append_left (List.getElem?_eq_some_iff.mp found).1).trans found
  have inside : ∀ {handle : Nat}, handles[handle]?.any territory = true → more[handle]?.any territory = true := by
    intro handle within
    obtain ⟨number, found, belongs⟩ := (Option.any_eq_true _ _).mp within
    exact (Option.any_eq_true _ _).mpr ⟨number, resolve found, belongs⟩
  have apart : ∀ {handle : Nat}, (!more[handle]?.any territory) = true → (!handles[handle]?.any territory) = true := by
    intro handle outside
    rw [Bool.not_eq_true'] at outside ⊢
    exact Bool.eq_false_iff.mpr fun within => Bool.eq_false_iff.mp outside (inside within)
  unfold Note.spares at spares ⊢
  split
  · exact Bool.or_eq_true_iff.mpr ((Bool.or_eq_true_iff.mp spares).imp_right apart)
  · exact Bool.or_eq_true_iff.mpr ((Bool.or_eq_true_iff.mp spares).imp_right apart)
  · refine Bool.or_eq_true_iff.mpr ((Bool.or_eq_true_iff.mp spares).imp apart fun whole => ?_)
    rw [Option.all_eq_true] at whole ⊢
    exact fun origin found => whole origin (resolve found)
  · rfl

/-- The key of which a call reports the value, or whether it has one. -/
def Action.sought? : Action Key Value → Option Key
  | .put key _ | .putShared key _ | .get key | .remove key | .pin key | .containsKey key => some key
  | _ => none

/-- A reply that reports no value. -/
def Reply.Empty : Reply Key Value → Prop
  | .value reported => reported = none
  | .flag found => found = false
  | .refused _ => True
  | _ => False

/-- A hidden key is in no list of what can be seen. -/
theorem Tiers.Hides.not_mem_entries {tiers : Tiers Key Value} {moment : Moment} {key : Key}
    (hides : tiers.Hides moment key) : key ∉ (tiers.entries moment).map Entry.key := by
  intro listed
  obtain ⟨entry, member, rfl⟩ := List.mem_map.mp listed
  rw [Tiers.entries, List.mem_append, List.mem_append] at member
  rcases member with (pinned | primary) | soft
  · obtain ⟨⟨key, value⟩, stored, rfl⟩ := List.mem_map.mp pinned
    exact hides.pinned value (PinnedTier.mem_toList_iff.mp stored)
  · obtain ⟨stored, included, rfl⟩ := List.mem_map.mp primary
    exact hides.primary (List.mem_map_of_mem included)
  · obtain ⟨shown, included, rfl⟩ := List.mem_map.mp soft
    obtain ⟨stored, live, rfl⟩ := List.mem_map.mp included
    obtain ⟨kept, alive⟩ := List.mem_filter.mp live
    have dead := hides.soft stored.2 kept moment (.refl moment)
    rw [SoftTier.isLive, dead] at alive
    cases alive

namespace Fleet

variable {fleet first second third : Fleet Key Value} {number : Nat} {cache : Cache Key Value}
  {territory : Nat → Bool} {key : Key} {react : Reaction Key Value}
  {change : Cache Key Value → Cache Key Value}

/-- No cache of a territory shows a key, nor will show it if nothing happens. -/
def Hides (fleet : Fleet Key Value) (territory : Nat → Bool) (key : Key) : Prop :=
  ∀ (number : Nat) (cache : Cache Key Value), territory number = true → fleet.caches[number]? = some cache →
    cache.tiers.Hides (fleet.moment cache) key

/-- What happened from one fleet to the next leaves a key hidden, as far as the notes taken tell of no write. -/
structure Sheltered (territory : Nat → Bool) (key : Key) (before after : Fleet Key Value) : Prop
    extends Passed before after where
  handles : before.handles <+: after.handles
  course : ∃ notes, after.journal = before.journal ++ notes ∧
    (after.reclaims < 2 ^ 64 → before.Dated → (∀ note ∈ notes, note.spares territory key after.handles = true) →
      before.Hides territory key → after.Hides territory key)

/-- Time alone brings nothing back. -/
theorem Hides.elapse (hides : first.Hides territory key) (elapsed : Elapsed first second) (dated : first.Dated)
    (few : second.reclaims < 2 ^ 64)
    (same : ∀ number : Nat, second.caches[number]?.map Cache.tiers = first.caches[number]?.map Cache.tiers) :
    second.Hides territory key := by
  intro number cache within found
  have tiers := same number
  rw [found] at tiers
  obtain ⟨earlier, present, equal⟩ := Option.map_eq_some_iff.mp tiers.symm
  have hidden := hides number earlier within present
  have order := elapsed.moment_before dated few number
  rw [moment_eq present] at hidden
  rw [moment_eq found, ← equal]
  exact hidden.mono order

theorem Sheltered.of_same_tiers (passed : Passed first second) (handles : first.handles <+: second.handles)
    (journal : first.journal <+: second.journal)
    (same : ∀ number : Nat, second.caches[number]?.map Cache.tiers = first.caches[number]?.map Cache.tiers) :
    Sheltered territory key first second := by
  obtain ⟨notes, grown⟩ := journal
  exact ⟨passed, handles, notes, grown.symm, fun few dated _ hides => hides.elapse passed.toElapsed dated few same⟩

theorem Sheltered.refl (fleet : Fleet Key Value) : Sheltered territory key fleet fleet :=
  .of_same_tiers (.refl fleet) (List.prefix_refl _) (List.prefix_refl _) fun _ => rfl

theorem Sheltered.trans (start : Sheltered territory key first second)
    (rest : Sheltered territory key second third) : Sheltered territory key first third := by
  obtain ⟨notes, told, hides⟩ := start.course
  obtain ⟨more, retold, hidesAfter⟩ := rest.course
  refine ⟨start.toPassed.trans rest.toPassed, start.handles.trans rest.handles, notes ++ more, ?_, ?_⟩
  · rw [retold, told, List.append_assoc]
  · intro few dated spared hidden
    have fewBefore := rest.reclaims.trans_lt few
    refine hidesAfter few (start.dated dated) ?_ (hides fewBefore dated ?_ hidden)
    · exact fun note listed => spared note (List.mem_append_right _ listed)
    · exact fun note listed => Note.spares_earlier rest.handles (spared note (List.mem_append_left _ listed))

theorem Sheltered.adjust (fleet : Fleet Key Value) (number : Nat) (tiers : ∀ cache, (change cache).tiers = cache.tiers)
    (epoch : ∀ cache, (change cache).epoch = cache.epoch) :
    Sheltered territory key fleet (fleet.adjust number change) :=
  .of_same_tiers (Passed.adjust tiers epoch) (List.prefix_refl _) (List.prefix_refl _) fun other =>
    tiers_adjust fleet number other tiers

theorem Sheltered.note (fleet : Fleet Key Value) (line : Note Key Value) :
    Sheltered territory key fleet (fleet.note line) :=
  .of_same_tiers (Passed.note fleet line) (List.prefix_refl _) (List.prefix_append _ _) fun _ => rfl

theorem reclaims_record (react : Reaction Key Value) (number : Nat) (listener : Option (Listener Key Value))
    (recording : Metrics.Recording) (fleet : Fleet Key Value) :
    ((host react number listener).record recording fleet).reclaims = fleet.reclaims :=
  rfl

/-- The moments that a writer reads after its purge are no earlier than the one at which it took its cache. -/
theorem work_reads (found : fleet.caches[number]? = some cache)
    (moves : (host react number cache.listener).Moves Passed) (operation : Operation Key Value)
    (dated : fleet.Dated) (few : (work react number cache operation fleet).2.reclaims < 2 ^ 64)
    (recording : Metrics.Recording) :
    (fleet.moment cache).Before ((host react number cache.listener).moment
      ((host react number cache.listener).record recording (Tiers.purgeSoft (host react number cache.listener)
        cache.tiers (fleet.hold number .exclusive)).2.2)) := by
  have holding := Passed.hold fleet number .exclusive
  obtain ⟨begun, ended⟩ := Tiers.operateHeld_moves moves Passed.refl Passed.trans operation cache.tiers
    (fleet.hold number .exclusive)
  have passed := holding.trans (begun.trans (moves.record recording _))
  have fewThen := ended.reclaims.trans_lt few
  rw [← reclaims_record react number cache.listener recording] at fewThen
  rw [moment_eq found, host_moment]
  exact passed.toElapsed.moment_before dated fewThen number

/-- A writer leaves a key hidden that it does not write, and reports no value of a hidden key. -/
theorem work_hides (found : fleet.caches[number]? = some cache)
    (moves : (host react number cache.listener).Moves Passed) (operation : Operation Key Value)
    (dated : fleet.Dated) (few : (work react number cache operation fleet).2.reclaims < 2 ^ 64)
    (hides : cache.tiers.Hides (fleet.moment cache) key) :
    (key ∉ Tiers.writtenPurged (host react number cache.listener) operation cache.tiers
        (fleet.hold number .exclusive) →
      ∀ settled, (work react number cache operation fleet).2.caches[number]? = some settled →
        settled.tiers.Hides ((work react number cache operation fleet).2.moment settled) key) ∧
      (operation.sought? = some key → (work react number cache operation fleet).1.Empty) := by
  have valid := (dated.reachable number cache found).valid
  have reads := work_reads found moves operation dated few
  refine ⟨?_, fun sought => hides.answerHeld valid reads sought⟩
  intro spared settled present
  have order := (work_passed found moves operation).moment_before dated few number
  rw [← moment_eq found, ← moment_eq present] at order
  rw [caches_work, if_pos rfl] at present
  obtain ⟨stored, -, rfl⟩ := Option.map_eq_some_iff.mp present
  exact (hides.operateHeld valid reads spared).mono order

/-- An operation that a note spares a territory writes no key that is hidden there. -/
theorem not_written {handle : Nat} (located : fleet.find? handle = some (number, cache))
    {action : Action Key Value} {operation : Operation Key Value} (asked : action.operation? fleet = some operation)
    (spares : (Note.answered (.mk handle action) (work react number cache operation fleet).1.reply).spares
      territory key fleet.handles = true)
    (hides : fleet.Hides territory key) (within : territory number = true) :
    key ∉ Tiers.writtenPurged (host react number cache.listener) operation cache.tiers
      (fleet.hold number .exclusive) := by
  have resolved := (find?_eq_some_iff.mp located).1
  have inside : fleet.handles[handle]?.any territory = true :=
    (Option.any_eq_true _ _).mpr ⟨number, resolved, within⟩
  have differs : ∀ {written : Key},
      (decide (written ≠ key) || !fleet.handles[handle]?.any territory) = true → key ∉ [written] := by
    intro written either listed
    rw [inside, Bool.not_true, Bool.or_false, decide_eq_true_eq] at either
    exact either (List.mem_singleton.mp listed).symm
  cases action with
  | put written value =>
      obtain rfl := Option.some.inj asked
      exact differs spares
  | putShared written value =>
      obtain rfl := Option.some.inj asked
      exact differs spares
  | putAll source replaceExisting =>
      obtain ⟨⟨origin, sourceCache⟩, sourced, rfl⟩ := Option.map_eq_some_iff.mp asked
      obtain ⟨sourceResolved, stored⟩ := find?_eq_some_iff.mp sourced
      have either : (!fleet.handles[handle]?.any territory || fleet.handles[source]?.all territory) = true := spares
      rw [inside, Bool.not_true, Bool.false_or, Option.all_eq_true] at either
      have hidden := hides origin sourceCache (either origin sourceResolved) stored
      intro listed
      exact hidden.not_mem_entries (((Tiers.copied_sublist _ _ _ _ _).map Entry.key).subset listed)
  | get | remove | pin | unpin | clear | setCacheSize | setSoftReferenceSize | purgeSoft =>
      obtain rfl := Option.some.inj asked
      exact nofun
  | _ => cases asked

/-- What a writer's callbacks leave hidden, the writer leaves hidden too, if it does not write the key. -/
theorem work_course (found : fleet.caches[number]? = some cache)
    (moves : (host react number cache.listener).Moves (Sheltered territory key)) (operation : Operation Key Value) :
    fleet.handles <+: (work react number cache operation fleet).2.handles ∧
      ∃ notes, (work react number cache operation fleet).2.journal = fleet.journal ++ notes ∧
        ((work react number cache operation fleet).2.reclaims < 2 ^ 64 → fleet.Dated →
          (∀ note ∈ notes, note.spares territory key (work react number cache operation fleet).2.handles = true) →
          (territory number = true → key ∉ Tiers.writtenPurged (host react number cache.listener) operation cache.tiers
            (fleet.hold number .exclusive)) →
          fleet.Hides territory key → (work react number cache operation fleet).2.Hides territory key) := by
  have holding : Sheltered territory key fleet (fleet.hold number .exclusive) :=
    .adjust fleet number (fun _ => rfl) fun _ => rfl
  have working := Tiers.operateHeld_keeps (moves.keeps Sheltered.trans (fleet.hold number .exclusive)) operation
    cache.tiers (Sheltered.refl _)
  have sheltered := holding.trans working
  obtain ⟨notes, told, hidesWhile⟩ := sheltered.course
  refine ⟨sheltered.handles, notes, told, ?_⟩
  intro few dated spared kept hides other settled within present
  have passing : (host react number cache.listener).Moves Passed := moves.imp Sheltered.toPassed
  by_cases same : number = other
  · subst same
    have hidden := hides number cache within found
    exact (work_hides found passing operation dated few hidden).1 (kept within) settled present
  · rw [caches_work, if_neg same] at present
    exact hidesWhile few dated spared hides other settled within present

theorem sheltered_closed [BEq Value] (territory : Nat → Bool) (key : Key) :
    Closed (@Sheltered Key Value _ territory key) fun _ => Sheltered territory key where
  refl := Sheltered.refl
  trans := Sheltered.trans
  working_of_related sheltered := sheltered
  working_trans := Sheltered.trans
  told number event fleet := .note fleet (.event number event)
  answered call reply fleet := .note fleet (.answered call reply)
  beside fleet number _ beside := .adjust fleet number beside.tiers beside.epoch
  cloned fleet number :=
    .of_same_tiers (passed_closed.cloned fleet number) (List.prefix_append _ _) (List.prefix_refl _) fun _ => rfl
  advanced fleet nanoseconds :=
    .of_same_tiers (Passed.advance fleet nanoseconds) (List.prefix_refl _) (List.prefix_refl _) fun _ => rfl
  reclaimed {fleet handle number _} located := by
    refine .of_same_tiers (passed_closed.reclaimed located) (List.prefix_refl _) (List.prefix_append _ _) ?_
    intro other
    apply tiers_adjust
    exact fun _ => rfl
  searched {fleet after number cache} _ _ searched := by
    have holding : Sheltered territory key fleet (fleet.hold number .shared) :=
      .adjust fleet number (fun _ => rfl) fun _ => rfl
    exact holding.trans (searched.trans (.adjust _ number (fun _ => rfl) fun _ => rfl))
  worked {fleet react handle number cache action operation} located free asked moves := by
    have found := (find?_eq_some_iff.mp located).2
    have passing : (host react number cache.listener).Moves Passed := moves.imp Sheltered.toPassed
    obtain ⟨handles, notes, told, hides⟩ := work_course found moves operation
    let line : Note Key Value := .answered (.mk handle action) (work react number cache operation fleet).1.reply
    have noted : Passed (work react number cache operation fleet).2 _ := Passed.note _ line
    have worked := work_passed found passing operation
    refine ⟨worked.trans noted, handles, notes ++ [line], ?_, ?_⟩
    · rw [note, told, List.append_assoc]
    · intro few dated spared hidden
      have answered := spared line (List.mem_append_right _ List.mem_cons_self)
      have kept := not_written located asked (Note.spares_earlier handles answered) hidden
      have after := hides (noted.reclaims.trans_lt few) dated
        (fun told listed => spared told (List.mem_append_left _ listed)) kept hidden
      exact after.elapse noted.toElapsed (worked.dated dated) few fun _ => rfl
  purged {fleet react number cache} found free moves := by
    have passing : (host react number cache.listener).Moves Passed := moves.imp Sheltered.toPassed
    obtain ⟨handles, notes, told, hides⟩ := work_course found moves .purgeSoft
    refine ⟨work_passed found passing .purgeSoft, handles, notes, told, ?_⟩
    intro few dated spared hidden
    exact hides few dated spared (fun _ => List.not_mem_nil) hidden

/-- A call that seeks a hidden key finds none. -/
theorem perform_hidden [BEq Value] {depth handle : Nat} {action : Action Key Value} (dated : fleet.Dated)
    (located : fleet.find? handle = some (number, cache)) (hides : cache.tiers.Hides (fleet.moment cache) key)
    (few : (perform (reactTo depth) (.mk handle action) fleet).2.reclaims < 2 ^ 64)
    (sought : action.sought? = some key) : (perform (reactTo depth) (.mk handle action) fleet).1.Empty := by
  have found := (find?_eq_some_iff.mp located).2
  cases refused : fleet.refusal? (.mk handle action) with
  | some acquisition =>
      rw [perform_refused refused]
      trivial
  | none =>
      have reached := @perform_outcome Key Value _ fleet number cache (reactTo depth) _ handle action located
        (granted_of_not_refused located refused)
      generalize perform (reactTo depth) (.mk handle action) fleet = outcome at few reached
      cases reached with
      | @worked _ operation asked free =>
          have moves : (host (reactTo depth) number cache.listener).Moves Passed :=
            host_moves passed_closed (reactTo_related passed_closed depth) number cache.listener
          have same : operation.sought? = some key := by
            cases action with
            | put | putShared | get | remove | pin =>
                obtain rfl := Option.some.inj asked
                exact sought
            | containsKey => cases asked
            | _ => cases sought
          have empty := (work_hides found moves operation dated few hides).2 same
          revert empty
          generalize (work (reactTo depth) number cache operation fleet).1 = answer
          cases answer with
          | value reported => exact id
          | flag found => exact id
          | count | done => exact False.elim
      | @hit other value after looked =>
          obtain rfl := Option.some.inj sought
          have present : (fleet.moment cache).Before
              ((host (reactTo depth) number cache.listener).moment fleet) := by
            rw [moment_host found]
            exact .refl _
          have missed := hides.lookup present
          rw [looked] at missed
          cases missed
      | miss => rfl
      | @told _ reply reported =>
          cases action with
          | containsKey other =>
              obtain rfl := Option.some.inj sought
              obtain rfl := Option.some.inj reported
              exact hides.containsKey_eq_false (.refl _)
          | put | putShared | get | remove | pin => cases reported
          | _ => cases sought
      | unknownSource | listened | searched | reclaimed | reset | cloned | advanced => cases sought

/-- Among caches that copy from none but each other, a key that none shows is shown by none, and no value is reported for
it, until the notes tell of a put. -/
theorem copies_bring_nothing_back [BEq Value] {settings : List Settings} {requests more : List (Call Key Value)}
    {after : Fleet Key Value} (reached : (ofSettings settings).converse requests = fleet)
    (ended : fleet.converse more = after) (few : after.reclaims < 2 ^ 64)
    (unseen : ∀ (number : Nat) (cache : Cache Key Value), territory number = true →
      fleet.caches[number]? = some cache → cache.tiers.containsKey (fleet.moment cache) key = false)
    (spared : ∀ note ∈ after.journal.drop fleet.journal.length, note.spares territory key after.handles = true)
    (within : territory number = true) (found : after.caches[number]? = some cache) :
    cache.tiers.containsKey (after.moment cache) key = false ∧
      ∀ (handle : Nat) (action : Action Key Value), after.find? handle = some (number, cache) →
        action.sought? = some key → (after.call (.mk handle action)).2.reclaims < 2 ^ 64 →
          (after.call (.mk handle action)).1.Empty := by
  subst ended
  have passed : Passed (ofSettings settings) fleet := reached ▸ converse_related passed_closed _ requests
  have dated := passed.dated (ofSettings_dated settings)
  have sheltered : Sheltered territory key fleet (fleet.converse more) :=
    converse_related (sheltered_closed territory key) fleet more
  obtain ⟨notes, told, hides⟩ := sheltered.course
  have hidden : (fleet.converse more).Hides territory key := by
    refine hides few dated ?_ ?_
    · intro note listed
      refine spared note ?_
      rw [told, List.drop_left]
      exact listed
    · intro other stored inside present
      have aged := dated.aged (sheltered.reclaims.trans_lt few) other stored present
      exact Tiers.hides_of_containsKey aged (unseen other stored inside present)
  have concealed := hidden number cache within found
  refine ⟨concealed.containsKey_eq_false (.refl _), ?_⟩
  intro handle action located sought fewThen
  exact perform_hidden (sheltered.dated dated) located concealed fewThen sought

end Fleet

end LayeredCache
