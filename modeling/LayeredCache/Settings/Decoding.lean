import LayeredCache.Json.Reader
import LayeredCache.Settings.Field

/-!
# Settings from JSON

Settings are read from an object, whose members may come in any order and may be missing, or from an array that lists
them in their order and may end early. What is missing becomes its preset, members of other names are passed over, and a
setting may be given only once.
-/

set_option autoImplicit false

namespace LayeredCache.Settings

def flag? : Json → Option Bool
  | .bool flag => some flag
  | _ => none

/-- A number of a setting, which has to fit 64 bits. -/
def word? : Json → Option UInt64
  | .number (some natural) => if natural < UInt64.size then some natural.toUInt64 else none
  | _ => none

def optionalWord? : Json → Option (Option UInt64)
  | .null => some none
  | json => (word? json).map some

def Field.read? : (field : Field) → Json → Option field.Value
  | lru => flag?
  | cacheSize => word?
  | softReferenceSize => word?
  | lockTimeout => word?
  | concurrencyLevel => word?
  | softTtl => optionalWord?

/-- The settings that a text has given so far. -/
def Draft : Type := (field : Field) → Option field.Value

namespace Draft

def empty : Draft := fun _ => none

def give (draft : Draft) (field : Field) (value : field.Value) : Draft := fun other =>
  if same : field = other then some (same ▸ value) else draft other

def complete (draft : Draft) : Settings := .ofValues fun field => (draft field).getD field.preset

def add? (draft : Draft) (field : Field) (json : Json) : Option Draft :=
  (field.read? json).map (draft.give field)

/-- Takes over the members of an object; a setting that is given already is not given again. -/
def addMembers? (draft : Draft) : List (Option (List Char) × Json) → Option Draft
  | [] => some draft
  | (none, _) :: _ => none
  | (some name, json) :: rest =>
      match Field.named? name with
      | none => addMembers? draft rest
      | some field =>
          if (draft field).isSome then none
          else do
            let draft ← draft.add? field json
            addMembers? draft rest

/-- Takes over the elements of an array, one for each of the given settings at most. -/
def addElements? (draft : Draft) : List Field → List Json → Option Draft
  | _, [] => some draft
  | [], _ :: _ => none
  | field :: fields, json :: rest => do
      let draft ← draft.add? field json
      addElements? draft fields rest

end Draft

def ofJson? : Json → Option Settings
  | .object members => (Draft.empty.addMembers? members).map Draft.complete
  | .array elements => (Draft.empty.addElements? Field.all elements).map Draft.complete
  | _ => none

def decode? (text : String) : Option Settings :=
  Json.read? text >>= ofJson?

end LayeredCache.Settings
