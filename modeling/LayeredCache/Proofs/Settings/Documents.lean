import LayeredCache.Proofs.Json.Reading
import LayeredCache.Settings.Decoding

/-! Settings as documents give them. What a document leaves out is as in the defaults, so that each text of settings is
read as them, whichever of the defaults it spells out, in which order, and whatever else it says. -/

set_option autoImplicit false

namespace LayeredCache.Settings

open Json (Written)

/-! ### Values -/

def wordJson (word : UInt64) : Json := .number (some word.toNat)

/-- How the value of a setting is given. -/
def Field.json : (field : Field) → field.Value → Json
  | lru, flag => .bool flag
  | cacheSize, size => wordJson size
  | softReferenceSize, size => wordJson size
  | lockTimeout, milliseconds => wordJson milliseconds
  | concurrencyLevel, level => wordJson level
  | softTtl, none => .null
  | softTtl, some milliseconds => wordJson milliseconds

theorem word?_wordJson (word : UInt64) : word? (wordJson word) = some word := by
  rw [wordJson, word?, if_pos word.toNat_lt]
  exact congrArg some (UInt64.ofNat_toNat)

theorem Field.read?_json (field : Field) (value : field.Value) : field.read? (field.json value) = some value := by
  cases field with
  | lru => rfl
  | cacheSize => exact word?_wordJson value
  | softReferenceSize => exact word?_wordJson value
  | lockTimeout => exact word?_wordJson value
  | concurrencyLevel => exact word?_wordJson value
  | softTtl =>
      cases value with
      | none => rfl
      | some milliseconds => exact congrArg (Option.map some) (word?_wordJson milliseconds)

/-- The presets of the settings are the default settings. -/
theorem Field.preset_eq (field : Field) : field.preset = ({} : Settings).value field := by
  cases field <;> rfl

/-! ### Members -/

/-- A member of an object that has the name of a setting. -/
def Field.isGivenBy (field : Field) (member : Option (List Char) × Json) : Bool :=
  member.1 == some field.name.toList

/-- An object that gives some settings, each at most once, and leaves out none but those that are as by default. The
order of its members is free, and so is what it says under other names. -/
structure Describes (settings : Settings) (members : List (Option (List Char) × Json)) : Prop where
  named : ∀ member ∈ members, member.1.isSome
  given : ∀ member ∈ members, ∀ field : Field, field.isGivenBy member → member.2 = field.json (settings.value field)
  once : ∀ field : Field, members.countP field.isGivenBy ≤ 1
  omitted : ∀ field : Field, members.countP field.isGivenBy = 0 → settings.value field = ({} : Settings).value field

theorem Field.named?_eq_some_iff {name : List Char} {field : Field} :
    named? name = some field ↔ field.name.toList = name := by
  constructor
  · intro found
    simpa using List.find?_some found
  · rintro rfl
    cases field <;> decide +kernel

theorem Field.isGivenBy_iff {name : List Char} {json : Json} {field : Field} :
    field.isGivenBy (some name, json) ↔ named? name = some field := by
  rw [named?_eq_some_iff, isGivenBy, beq_iff_eq, Option.some.injEq, eq_comm]

theorem Field.countP_cons {name : List Char} {json : Json} {field : Field}
    (rest : List (Option (List Char) × Json)) :
    ((some name, json) :: rest).countP field.isGivenBy =
      rest.countP field.isGivenBy + if named? name = some field then 1 else 0 := by
  rw [List.countP_cons]
  simp only [isGivenBy_iff]

theorem Field.countP_concat_pos {name : List Char} {json : Json} {field : Field}
    {before : List (Option (List Char) × Json)} :
    0 < (before ++ [(some name, json)]).countP field.isGivenBy ↔
      0 < before.countP field.isGivenBy ∨ named? name = some field := by
  rw [List.countP_append, countP_cons, List.countP_nil, Nat.zero_add]
  by_cases known : named? name = some field
  · rw [if_pos known]
    exact iff_of_true (Nat.succ_pos _) (.inr known)
  · rw [if_neg known, Nat.add_zero, or_iff_left known]

namespace Draft

variable {settings : Settings} {draft result : Draft} {field : Field} {name : List Char} {json : Json}
  {before rest : List (Option (List Char) × Json)}

theorem give_self (draft : Draft) (value : field.Value) : draft.give field value field = some value := by
  rw [give, dif_pos rfl]

theorem give_of_ne {other : Field} (apart : field ≠ other) (draft : Draft) (value : field.Value) :
    draft.give field value other = draft other := by
  rw [give, dif_neg apart]

theorem addMembers?_known (known : Field.named? name = some field) :
    draft.addMembers? ((some name, json) :: rest) =
      if (draft field).isSome then none else (draft.add? field json).bind fun draft => draft.addMembers? rest := by
  rw [addMembers?, known]
  rfl

theorem addMembers?_unknown (unknown : Field.named? name = none) :
    draft.addMembers? ((some name, json) :: rest) = draft.addMembers? rest := by
  rw [addMembers?, unknown]

/-- Some of the values of settings. -/
def partOf (settings : Settings) (given : Field → Prop) [DecidablePred given] : Draft := fun field =>
  if given field then some (settings.value field) else none

section

variable {given grown : Field → Prop} [DecidablePred given] [DecidablePred grown]

theorem partOf_congr (same : ∀ field, given field ↔ grown field) : partOf settings given = partOf settings grown :=
  funext fun field => if_congr (same field) rfl rfl

theorem give_partOf (grows : ∀ other, grown other ↔ given other ∨ other = field) :
    (partOf settings given).give field (settings.value field) = partOf settings grown := by
  funext other
  by_cases same : field = other
  · subst same
    rw [give_self, partOf, if_pos ((grows field).mpr (.inr rfl))]
  · rw [give_of_ne same]
    exact if_congr ((grows other).trans (or_iff_left fun found => same found.symm)).symm rfl rfl

theorem complete_partOf (omitted : ∀ field, ¬given field → settings.value field = ({} : Settings).value field) :
    (partOf settings given).complete = settings := by
  refine eq_of_value_eq fun field => ?_
  rw [complete, value_ofValues, partOf]
  split
  · rfl
  next missing => rw [Option.getD_none, omitted field missing, field.preset_eq]

end

/-- The members of settings are taken over, on top of those that are taken over already. -/
theorem addMembers?_partOf (describes : Describes settings (before ++ rest)) :
    (partOf settings fun field => 0 < before.countP field.isGivenBy).addMembers? rest =
      some (partOf settings fun field => 0 < (before ++ rest).countP field.isGivenBy) := by
  -- What is taken over already stays in view as `before`: a member is refused if its name was given there.
  induction rest generalizing before with
  | nil => rw [addMembers?, List.append_nil]
  | cons member rest ih =>
      have listed : member ∈ before ++ member :: rest := List.mem_append_right before List.mem_cons_self
      obtain ⟨name, json⟩ := member
      obtain ⟨name, rfl⟩ := Option.isSome_iff_exists.mp (describes.named _ listed)
      have whole := List.append_cons before (some name, json) rest
      have taken := ih (whole ▸ describes)
      rw [← whole] at taken
      cases known : Field.named? name with
      | none =>
          rw [addMembers?_unknown known, ← taken]
          refine congrArg (addMembers? · rest) (partOf_congr fun field => ?_)
          rw [Field.countP_concat_pos, known]
          exact (or_iff_left nofun).symm
      | some field =>
          have once := describes.once field
          rw [List.countP_append, Field.countP_cons, if_pos known] at once
          have missing : partOf settings (fun field => 0 < before.countP field.isGivenBy) field = none :=
            if_neg (by omega)
          have value := describes.given _ listed field (Field.isGivenBy_iff.mpr known)
          have read : field.read? json = some (settings.value field) :=
            (congrArg field.read? value).trans (field.read?_json _)
          rw [addMembers?_known known, missing, add?, read, ← taken]
          refine congrArg (addMembers? · rest) (give_partOf fun other => ?_)
          rw [Field.countP_concat_pos, known, Option.some.injEq, eq_comm]

/-- A setting that is given already is not given again. -/
theorem countP_of_addMembers? (added : draft.addMembers? rest = some result) (field : Field) :
    (draft field).isSome.toNat + rest.countP field.isGivenBy ≤ 1 := by
  induction rest generalizing draft with
  | nil => exact (draft field).isSome.toNat_le
  | cons member rest ih =>
      obtain ⟨name, json⟩ := member
      cases name with
      | none => cases added
      | some name =>
          rw [Field.countP_cons]
          cases known : Field.named? name with
          | none =>
              rw [addMembers?_unknown known] at added
              exact ih added
          | some other =>
              rw [addMembers?_known known] at added
              split at added
              · cases added
              next missing =>
                obtain ⟨given, found, added⟩ := Option.bind_eq_some_iff.mp added
                obtain ⟨value, -, rfl⟩ := Option.map_eq_some_iff.mp found
                have once := ih added
                by_cases same : other = field
                · subst same
                  rw [give_self] at once
                  rw [Bool.not_eq_true] at missing
                  rw [missing, if_pos rfl, Bool.toNat_false, Nat.zero_add, Nat.add_comm]
                  exact once
                · rw [give_of_ne same] at once
                  rw [if_neg fun found => same (Option.some.inj found)]
                  exact once

/-- The elements of settings are taken over in the order of the settings. -/
theorem addElements?_partOf (settings : Settings) (before fields : List Field) (count : Nat) :
    (partOf settings (· ∈ before)).addElements? fields
        ((fields.take count).map fun field => field.json (settings.value field)) =
      some (partOf settings (· ∈ before ++ fields.take count)) := by
  induction fields generalizing before count with
  | nil => rw [List.take_nil, List.map_nil, addElements?, List.append_nil]
  | cons first fields ih =>
      cases count with
      | zero => rw [List.take_zero, List.map_nil, addElements?, List.append_nil]
      | succ count =>
          have taken := ih (before ++ [first]) count
          rw [← List.append_cons] at taken
          rw [List.take_succ_cons, List.map_cons, addElements?, add?, first.read?_json, ← taken]
          refine congrArg (addElements? · fields _) (give_partOf fun other => ?_)
          rw [List.mem_append, List.mem_singleton]

end Draft

theorem ofJson?_object {settings : Settings} {members : List (Option (List Char) × Json)}
    (describes : Describes settings members) : ofJson? (.object members) = some settings := by
  have added := Draft.addMembers?_partOf (show Describes settings ([] ++ members) from describes)
  rw [ofJson?]
  refine (congrArg (Option.map Draft.complete) added).trans (congrArg some (Draft.complete_partOf fun field absent => ?_))
  exact describes.omitted field (Nat.eq_zero_of_not_pos absent)

theorem ofJson?_array {settings : Settings} {count : Nat}
    (tail : ∀ field ∈ Field.all.drop count, settings.value field = ({} : Settings).value field) :
    ofJson? (.array ((Field.all.take count).map fun field => field.json (settings.value field))) = some settings := by
  have added := Draft.addElements?_partOf settings [] Field.all count
  rw [ofJson?]
  refine (congrArg (Option.map Draft.complete) added).trans (congrArg some (Draft.complete_partOf fun field absent => ?_))
  have all : field ∈ Field.all.take count ++ Field.all.drop count := by
    rw [List.take_append_drop]
    cases field <;> decide
  exact tail field ((List.mem_append.mp all).resolve_left absent)

theorem ofJson?_repeated {members : List (Option (List Char) × Json)} {field : Field}
    (repeated : 2 ≤ members.countP field.isGivenBy) : ofJson? (.object members) = none := by
  cases added : Draft.empty.addMembers? members with
  | none => rw [ofJson?, added, Option.map_none]
  | some result =>
      have once := Draft.countP_of_addMembers? added field
      omega

theorem decode?_eq {json : Json} {text : String} (written : Written json text.toList) : decode? text = ofJson? json := by
  rw [decode?, Json.read?_of_written written]
  rfl

/-- Every text of an object that gives some settings is read as them, and so is every text of an array that lists their
values in their order, whatever is left out because it is as by default; an object that gives a setting twice is
refused. What stands for a setting that is left out is what it is by default. -/
theorem gaps_become_defaults :
    (∀ (settings : Settings) (members : List (Option (List Char) × Json)) (text : String),
      Describes settings members → Written (.object members) text.toList → decode? text = some settings) ∧
    (∀ (settings : Settings) (count : Nat) (text : String),
      (∀ field ∈ Field.all.drop count, settings.value field = ({} : Settings).value field) →
      Written (.array ((Field.all.take count).map fun field => field.json (settings.value field))) text.toList →
      decode? text = some settings) ∧
    (∀ (members : List (Option (List Char) × Json)) (field : Field) (text : String),
      2 ≤ members.countP field.isGivenBy → Written (.object members) text.toList → decode? text = none) ∧
    ∀ field : Field, field.preset = ({} : Settings).value field := by
  refine ⟨?_, ?_, ?_, Field.preset_eq⟩
  · intro settings members text describes written
    rw [decode?_eq written, ofJson?_object describes]
  · intro settings count text tail written
    rw [decode?_eq written, ofJson?_array tail]
  · intro members field text repeated written
    rw [decode?_eq written, ofJson?_repeated repeated]

/-- Settings out of their order, one under a name that is spelled out, with members of another name among them; settings
that end early; and a setting that is given twice. -/
theorem respelled_settings_are_read :
    decode? "\x7b\"x\":[null], \"soft_ttl_ms\" : 7,\"x\":-1.5e3,\"\\u006Cru\":true\x7d" =
      some { lru := true, softTtl := some 7 } ∧
    decode? "[true, 10]" = some { lru := true, cacheSize := 10 } ∧
    decode? "\x7b\"lru\":true,\"lru\":0\x7d" = none := by
  obtain ⟨objects, arrays, repeated, -⟩ := gaps_become_defaults
  have empty : Json.Blanks [] := nofun
  have blank : Json.Blanks [' '] := List.forall_mem_singleton.mpr (by decide)
  have other : Json.Label (some "x".toList) "\"x\"".toList :=
    .mk empty (Json.quoted_of_plain (by simp) : Json.Quoted (some "x".toList) _) empty
  have lru : Json.Label (some "lru".toList) "\"lru\"".toList :=
    .mk empty (Json.quoted_of_plain (by simp) : Json.Quoted (some "lru".toList) _) empty
  refine ⟨?_, ?_, ?_⟩
  · have lifetime : Json.Label (some "soft_ttl_ms".toList) " \"soft_ttl_ms\" ".toList :=
      .mk blank (Json.quoted_of_plain (by simp) : Json.Quoted (some "soft_ttl_ms".toList) _) blank
    have spelled : Json.Label (some "lru".toList) "\"\\u006Cru\"".toList := by
      have zero : Json.HexDigit 0 '0' := ⟨by decide, by decide⟩
      have six : Json.HexDigit 6 '6' := ⟨by decide, by decide⟩
      have twelve : Json.HexDigit 12 'C' := ⟨by decide, by decide⟩
      have others : List.Forall₂ Json.PieceText [.character 'r', .character 'u'] [['r'], ['u']] :=
        .cons (.plain (by decide) (by decide) (by decide)) (.cons (.plain (by decide) (by decide) (by decide)) .nil)
      exact .mk empty (Json.quoted_of_written (.cons (.unit zero zero six twelve) others)) empty
    have list : Written (.array [.null]) "[null]".toList := by
      have element : ∀ element ∈ [(Json.null, "null".toList)], Written element.1 element.2 :=
        List.forall_mem_singleton.mpr .null
      exact .array (List.cons_ne_nil _ _) element
    have seven : Written (.number (some 7)) " 7".toList :=
      .padded blank (.number (.natural (Json.whole_singleton (rfl : '7'.isDigit)))) empty
    have broken : Written (.number none) "-1.5e3".toList := by
      have fraction : Json.Fraction ".5".toList := .present (Json.digits_singleton (rfl : '5'.isDigit))
      have exponent : Json.Exponent ('e' :: ([] ++ ['3'])) :=
        .present (by decide) (by decide) (Json.digits_singleton (rfl : '3'.isDigit))
      exact .number (.negative (Json.whole_singleton (rfl : '1'.isDigit)) fraction exponent)
    let members : List Json.Member := [⟨some "x".toList, "\"x\"".toList, .array [.null], "[null]".toList⟩,
      ⟨some "soft_ttl_ms".toList, " \"soft_ttl_ms\" ".toList, .number (some 7), " 7".toList⟩,
      ⟨some "x".toList, "\"x\"".toList, .number none, "-1.5e3".toList⟩,
      ⟨some "lru".toList, "\"\\u006Cru\"".toList, .bool true, "true".toList⟩]
    have labels : ∀ member ∈ members, Json.Label member.name member.label := by
      simp only [members, List.forall_mem_cons]
      exact ⟨other, lifetime, other, spelled, nofun⟩
    have values : ∀ member ∈ members, Written member.value member.text := by
      simp only [members, List.forall_mem_cons]
      exact ⟨list, seven, broken, .true, nofun⟩
    have describes : Describes { lru := true, softTtl := some 7 }
        (members.map fun member => (member.name, member.value)) := by
      refine ⟨by simp [members], ?_, ?_, ?_⟩
      · have unknown : Field.named? "x".toList = none := by decide +kernel
        have first : Field.named? "lru".toList = some .lru := by decide +kernel
        have last : Field.named? "soft_ttl_ms".toList = some .softTtl := by decide +kernel
        simp only [members, List.map_cons, List.forall_mem_cons, Field.isGivenBy_iff, unknown, first, last]
        exact ⟨nofun, by rintro _ ⟨⟩; rfl, nofun, by rintro _ ⟨⟩; rfl, nofun⟩
      · intro field
        cases field <;> decide +kernel
      · intro field absent
        cases field with
        | lru => exact absurd absent (by decide +kernel)
        | softTtl => exact absurd absent (by decide +kernel)
        | _ => rfl
    exact objects _ _ _ describes (.object (List.cons_ne_nil _ _) labels values)
  · have ten : Written (.number (some 10)) " 10".toList := by
      have whole : Json.Whole "10".toList := ⟨⟨nofun, by simp⟩, by decide⟩
      exact .padded blank (.number (.natural whole)) empty
    let elements : List (Json × List Char) := [(.bool true, "true".toList), (.number (some 10), " 10".toList)]
    have values : ∀ element ∈ elements, Written element.1 element.2 := by
      simp only [elements, List.forall_mem_cons]
      exact ⟨.true, ten, nofun⟩
    have tail : ∀ field ∈ Field.all.drop 2, ({ lru := true, cacheSize := 10 } : Settings).value field =
        ({} : Settings).value field := by
      intro field listed
      cases field with
      | lru => exact absurd listed (by decide)
      | cacheSize => exact absurd listed (by decide)
      | _ => rfl
    exact arrays { lru := true, cacheSize := 10 } 2 _ tail (.array (List.cons_ne_nil _ _) values)
  · have zero : Written (.number (some 0)) "0".toList :=
      .number (.natural (Json.whole_singleton (rfl : '0'.isDigit)))
    let members : List Json.Member := [⟨some "lru".toList, "\"lru\"".toList, .bool true, "true".toList⟩,
      ⟨some "lru".toList, "\"lru\"".toList, .number (some 0), "0".toList⟩]
    have labels : ∀ member ∈ members, Json.Label member.name member.label := by
      simp only [members, List.forall_mem_cons]
      exact ⟨lru, lru, nofun⟩
    have values : ∀ member ∈ members, Written member.value member.text := by
      simp only [members, List.forall_mem_cons]
      exact ⟨.true, zero, nofun⟩
    have twice : 2 ≤ (members.map fun member => (member.name, member.value)).countP (Field.isGivenBy .lru) := by
      decide +kernel
    exact repeated _ .lru _ twice (.object (List.cons_ne_nil _ _) labels values)

end LayeredCache.Settings
