import LayeredCache.Proofs.Fleet.Deeds
import LayeredCache.Proofs.Tiers.Stamps

/-! Victims in a fleet. Whatever is called, by users or by listeners, the history of a cache tells who leaves it next, and
calls that only read are no part of that history. -/

set_option autoImplicit false

namespace LayeredCache

variable {Key Value : Type} [DecidableEq Key]

/-- Whether an action does no more than tell what it reads. -/
def Action.reads : Action Key Value → Bool
  | .containsKey _ | .isPinned _ | .containsValue _ _ | .size | .isEmpty | .cacheSize | .softReferenceSize
  | .concurrencyLevel | .isLru | .evictionOrder | .lockTimeout | .pinnedKeys | .keys | .entries | .audit | .epoch
  | .metrics | .exposition _ | .debug | .debugIndented => true
  | _ => false

namespace Fleet

/-- A call that only reads does nothing to the tiers of any cache. -/
theorem deedsOn_of_reads {frame : Frame Key Value} (reads : frame.request.action.reads = true) (number : Nat) :
    frame.deedsOn number = [] := by
  have calm : frame.fleet.undertaking? frame.request = none := by
    cases taken : frame.fleet.undertaking? frame.request with
    | none => rfl
    | some undertaking =>
        obtain ⟨-, -, -, asked⟩ := undertaking?_eq_some taken
        revert reads asked
        cases frame.request.action <;> exact nofun
  simp only [Frame.deedsOn, calm, Option.map_none, reduceCtorEq, ↓reduceIte]

variable [BEq Value]

/-- In every history of a cache, the stored soft entries and then the stored primary entries, oldest first, are in the order
of their stamps. Every deed takes what its events tell of from the front of the line and nothing else besides, and every
event takes the entry with the smallest stamp. -/
theorem oldest_leave_first {settings : List Settings} {requests : List (Call Key Value)}
    {trace : List (Frame Key Value)}
    (carried : CarriedOut [⟨[], requests, ofSettings settings, (ofSettings settings).converse requests⟩] trace)
    {number : Nat} (listed : number < settings.length) :
    (∀ deeds now, Shown number trace ((ofSettings settings).converse requests) deeds now →
      ∃ tiers, now.tiers? number = some tiers ∧
        Tiers.Chronological deeds (tiers.softKeys ++ tiers.primaryKeys)) ∧
      (∀ past done future, trace.flatMap (Frame.deedsOn number) = past ++ done :: future →
        Tiers.InOrder done ∧ Tiers.OldestFirst (Tiers.stamp (past ++ [done])) done) ∧
      ∀ frame ∈ trace, frame.request.action.reads = true → frame.deedsOn number = [] := by
  let chosen := settings[number]
  let start : Tiers Key Value :=
    .empty chosen.evictionOrder chosen.cacheSize.toNat chosen.softReferenceSize.toNat chosen.softTtlSpan
  have stored : (ofSettings settings).tiers? number = some start := by
    rw [tiers?, ofSettings, List.getElem?_toArray, List.getElem?_map, List.getElem?_eq_getElem listed]
    rfl
  have valid : start.Valid := .empty _ _ _ _
  refine ⟨?_, ?_, fun frame _ reads => deedsOn_of_reads reads number⟩
  · intro deeds now shown
    obtain ⟨tiers, found, course⟩ := shown.course carried stored
    exact ⟨tiers, found, course.chronological valid rfl⟩
  · intro past done future split
    have shown : Shown number trace ((ofSettings settings).converse requests) _ _ := .ended
    obtain ⟨tiers, -, course⟩ := shown.course carried stored
    exact ⟨course.inOrder valid split, course.oldestFirst valid rfl split⟩

/-- A key that is got is the newest, and so it is the key put after it that makes way. -/
theorem got_key_stays :
    let settings : Settings := { lru := true, cacheSize := 2, softReferenceSize := 1 }
    let requests : List (Call Nat Nat) := [.mk 0 (.put 1 10), .mk 0 (.put 2 20), .mk 0 (.get 1), .mk 0 (.put 3 30)]
    let fleet : Fleet Nat Nat := .ofSettings [settings]
    let deeds := (begun (reactTo fleet.caches.size) [] requests fleet).flatMap (Frame.deedsOn 0)
    deeds.filterMap Deed.renewed? = [1, 2, 1, 3] ∧ Tiers.Chronological deeds [2, 1, 3] := by
  intro settings requests fleet deeds
  have each : (begun (reactTo fleet.caches.size) [] requests fleet).all (alone (reactTo fleet.caches.size)) = true := by
    decide +kernel
  have renewed : deeds.filterMap Deed.renewed? = [1, 2, 1, 3] := by decide +kernel
  have line : ((fleet.converse requests).tiers? 0).map (fun tiers => tiers.softKeys ++ tiers.primaryKeys) =
      some [2, 1, 3] := by decide +kernel
  have carried := converse_begun fleet each
  obtain ⟨tiers, found, chronological⟩ := (oldest_leave_first carried Nat.zero_lt_one).1 deeds _ .ended
  rw [found] at line
  exact ⟨renewed, Option.some.inj line ▸ chronological⟩

end Fleet

end LayeredCache
