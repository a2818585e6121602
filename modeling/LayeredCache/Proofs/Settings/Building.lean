import LayeredCache.Fleet.Basic
import LayeredCache.Proofs.Settings.Rounding
import LayeredCache.Settings.Field
import Mathlib.Data.List.Induction

/-! Settings as they were asked for. Each setting is what the last call that says something of it has given, with spans
rounded up to milliseconds. A cache is refused if the concurrency level or the lifetime is zero in the end, and for nothing
else; but where a capacity and the concurrency level are both great, there is no room to build it in. -/

set_option autoImplicit false

namespace LayeredCache

open Settings (Field)

/-- What a call says of a setting. -/
def Setter.given? : Setter → (field : Field) → Option field.Value
  | lru flag, .lru => some flag
  | cacheSize size, .cacheSize => some size
  | softReferenceSize size, .softReferenceSize => some size
  | concurrencyLevel level, .concurrencyLevel => some level
  | lockTimeout timeout, .lockTimeout => some timeout.stored
  | softTtl ttl, .softTtl => some (some ttl.stored)
  | restart settings, field => some (settings.value field)
  | _, _ => none

/-- What the last call that says something of a setting says of it. -/
def lastGiven? (calls : List Setter) (field : Field) : Option field.Value :=
  calls.reverse.findSome? fun call => call.given? field

theorem lastGiven?_concat (calls : List Setter) (call : Setter) (field : Field) :
    lastGiven? (calls ++ [call]) field = (call.given? field).or (lastGiven? calls field) := by
  rw [lastGiven?, List.reverse_append, List.findSome?_append]
  simp [lastGiven?]

/-- The calls after the last one that says something of a setting do not count. -/
theorem lastGiven?_of_last {field : Field} {call : Setter} {value : field.Value} {after : List Setter}
    (gives : call.given? field = some value) (quiet : ∀ later ∈ after, later.given? field = none)
    (before : List Setter) : lastGiven? (before ++ call :: after) field = some value := by
  have silent : (after.reverse.findSome? fun later => later.given? field) = none :=
    List.findSome?_eq_none_iff.mpr fun later listed => quiet later (List.mem_reverse.mp listed)
  rw [lastGiven?, List.reverse_append, List.reverse_cons, List.append_assoc, List.findSome?_append, silent,
    Option.none_or, List.singleton_append, List.findSome?_cons, gives]

namespace Settings

theorem value_set (settings : Settings) (call : Setter) (field : Field) :
    (settings.set call).value field = (call.given? field).getD (settings.value field) := by
  cases call <;> cases field <;> rfl

theorem ofSetters_concat (calls : List Setter) (call : Setter) :
    ofSetters (calls ++ [call]) = (ofSetters calls).set call :=
  List.foldl_append

theorem value_ofSetters (calls : List Setter) (field : Field) :
    (ofSetters calls).value field = (lastGiven? calls field).getD (({} : Settings).value field) := by
  induction calls using List.reverseRecOn with
  | nil => rfl
  | append_singleton calls call ih =>
      rw [ofSetters_concat, value_set, ih, lastGiven?_concat]
      cases call.given? field <;> rfl

end Settings

namespace Cache

variable {Key Value : Type} [DecidableEq Key] {room : Room} {settings : Settings} {cache : Cache Key Value}

theorem build?_eq_ite (room : Room) (settings : Settings) :
    (build? room settings : Except BuildFault (Cache Key Value)) =
      if settings.concurrencyLevel = 0 then .error (.refused .zeroConcurrencyLevel)
      else if settings.softTtl = some 0 then .error (.refused .zeroSoftTtl)
      else if room.admits settings.cacheSize.toNat settings.softReferenceSize.toNat settings.roomHint then
        .ok (ofSettings settings)
      else .error .overflow := by
  rw [build?, Settings.validate]
  split
  · rfl
  · split <;> rfl

theorem eq_ofSettings_of_build? (built : build? room settings = .ok cache) : cache = ofSettings settings := by
  rw [build?_eq_ite] at built
  split at built
  · cases built
  · split at built
    · cases built
    · split at built
      · exact (Except.ok.inj built).symm
      · cases built

end Cache

namespace Settings

/-- The spans of both settings that have one are rounded up and only become zero if they are; each setting is what was last
said of it; and a cache is refused for a zero concurrency level first, and then for a lifetime of zero, and for nothing
else. If it is not refused, it is built unless there is no room for it. The time that a cache waits for its lock is the
least in whole milliseconds that is not below what was asked for. -/
theorem requests_are_kept {Key Value : Type} [DecidableEq Key] (room : Room) :
    (∀ (settings : Settings) (span : Span),
      settings.set (.lockTimeout span) = { settings with lockTimeout := span.stored } ∧
      settings.set (.softTtl span) = { settings with softTtl := some span.stored }) ∧
    (∀ span : Span, span.RoundedUp span.stored) ∧
    (∀ shorter longer : Span, shorter.nanoseconds ≤ longer.nanoseconds → shorter.stored ≤ longer.stored) ∧
    (∀ count : UInt64, (Span.ofMilliseconds count.toNat).stored = count) ∧
    (∀ (calls : List Setter) (field : Field),
      (ofSetters calls).value field = (lastGiven? calls field).getD (({} : Settings).value field)) ∧
    (∀ calls : List Setter,
      let settings := ofSetters calls
      let built : Except BuildFault (Cache Key Value) := Cache.build? room settings
      let enough := room.admits settings.cacheSize.toNat settings.softReferenceSize.toNat settings.roomHint
      (built = .error (.refused .zeroConcurrencyLevel) ↔ settings.concurrencyLevel = 0) ∧
      (built = .error (.refused .zeroSoftTtl) ↔ settings.concurrencyLevel ≠ 0 ∧ settings.softTtl = some 0) ∧
      (built = .error .overflow ↔
        settings.concurrencyLevel ≠ 0 ∧ settings.softTtl ≠ some 0 ∧ enough = false) ∧
      (built = .ok (.ofSettings settings) ↔
        settings.concurrencyLevel ≠ 0 ∧ settings.softTtl ≠ some 0 ∧ enough = true)) ∧
    ∀ (before after : List Setter) (span : Span) (cache : Cache Key Value), span.Fits →
      (∀ call ∈ after, call.given? .lockTimeout = none) →
      Cache.build? room (ofSetters (before ++ .lockTimeout span :: after)) = .ok cache →
      ∃ count, cache.lockTimeout = .ofMilliseconds count ∧
        IsLeast {count : Nat | span.nanoseconds ≤ (Span.ofMilliseconds count).nanoseconds} count := by
  refine ⟨fun _ _ => ⟨rfl, rfl⟩, Span.stored_roundedUp, fun _ _ => Span.stored_mono, Span.stored_ofMilliseconds,
    value_ofSetters, ?_, ?_⟩
  · intro calls settings built enough
    have cases := @Cache.build?_eq_ite Key Value _ room settings
    change built = _ at cases
    rw [cases]
    by_cases level : settings.concurrencyLevel = 0
    · simp [level]
    · by_cases lifetime : settings.softTtl = some 0
      · simp [level, lifetime]
      · rw [if_neg level, if_neg lifetime]
        by_cases fits : enough = true
        · rw [if_pos fits]
          simp [level, lifetime, fits]
        · rw [if_neg fits]
          simp [level, lifetime, fits]
  · intro before after span cache fits quiet built
    refine ⟨span.stored.toNat, ?_, Span.stored_isLeast fits⟩
    have said := value_ofSetters (before ++ .lockTimeout span :: after) .lockTimeout
    rw [lastGiven?_of_last rfl quiet before] at said
    have timeout : (ofSetters (before ++ .lockTimeout span :: after)).lockTimeout = span.stored := said
    rw [Cache.eq_ofSettings_of_build? built, Cache.ofSettings, lockTimeoutSpan, timeout]

/-- A lifetime of zero that a restart takes back, and a wait of a millisecond and a half, asked for last. -/
theorem wait_is_rounded_up_after_restart :
    let before : List Setter := [.softTtl ⟨0⟩, .lockTimeout ⟨7⟩, .restart { concurrencyLevel := 4 }]
    let after : List Setter := [.lru true]
    let span : Span := ⟨1500000⟩
    let room : Room := ⟨1000, 1000, by decide, by decide⟩
    let settings := ofSetters (before ++ .lockTimeout span :: after)
    ((⟨7⟩ : Span).nanoseconds ≤ span.nanoseconds ∧ (⟨7⟩ : Span).stored ≤ span.stored) ∧
    settings = { lru := true, lockTimeout := 2, concurrencyLevel := 4 } ∧
    span.Fits ∧ (∀ call ∈ after, call.given? .lockTimeout = none) ∧
    Cache.build? room settings = .ok (Cache.ofSettings settings : Cache Nat Nat) ∧
    ∃ count, (Cache.ofSettings settings : Cache Nat Nat).lockTimeout = .ofMilliseconds count ∧
      IsLeast {count : Nat | span.nanoseconds ≤ (Span.ofMilliseconds count).nanoseconds} count := by
  intro before after span room settings
  obtain ⟨-, -, monotone, -, -, -, least⟩ := @requests_are_kept Nat Nat _ room
  have below : (⟨7⟩ : Span).nanoseconds ≤ span.nanoseconds := by decide
  have fits : span.Fits := by
    unfold Span.Fits
    decide
  have quiet : ∀ call ∈ after, call.given? .lockTimeout = none := by
    intro call listed
    rw [List.mem_singleton.mp listed]
    rfl
  have built : Cache.build? room settings = .ok (Cache.ofSettings settings : Cache Nat Nat) := by
    rw [Cache.build?_eq_ite, if_neg (by decide), if_neg (by decide), if_pos (by decide)]
  exact ⟨⟨below, monotone _ _ below⟩, by decide, fits, quiet, built, least before after span _ fits quiet built⟩

/-- With the greatest capacity and the greatest concurrency level, neither the level nor the lifetime is zero, and yet there
is no machine with the room that is asked for. -/
theorem greatest_settings_are_not_built :
    let settings := ofSetters [.cacheSize 18446744073709551615, .concurrencyLevel 18446744073709551615]
    settings.concurrencyLevel ≠ 0 ∧ settings.softTtl ≠ some 0 ∧
      ∀ room : Room, (Cache.build? room settings : Except BuildFault (Cache Nat Nat)) = .error .overflow := by
  intro settings
  have level : settings.concurrencyLevel ≠ 0 := by decide
  have lifetime : settings.softTtl ≠ some 0 := by decide
  refine ⟨level, lifetime, ?_⟩
  intro room
  have wanted : min settings.cacheSize.toNat settings.roomHint = 2 ^ 64 - 1 := by decide
  have short : ¬room.admits settings.cacheSize.toNat settings.softReferenceSize.toNat settings.roomHint = true := by
    rw [Room.admits, wanted, Bool.and_eq_true, decide_eq_true_eq]
    intro both
    have bound := room.primary_addressable
    omega
  rw [Cache.build?_eq_ite, if_neg level, if_neg lifetime, if_neg short]

end Settings

end LayeredCache
