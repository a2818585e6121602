import LayeredCache.Json.Token

/-!
# JSON values

The tree that a JSON text stands for, keeping what a reader of settings can tell apart: a number is only known by its
value when it is written with digits alone, and a string only by its text when every escape in it names a character. The
words of a text are read from the left, with the containers that are still open on a stack, so nesting of any depth is
read in one pass over the words.
-/

set_option autoImplicit false

namespace LayeredCache

inductive Json where
  | null
  | bool (value : Bool)
  | number (natural : Option Nat)
  | string (text : Option (List Char))
  | array (elements : List Json)
  | object (members : List (Option (List Char) × Json))

namespace Json

/-- A container that is still open, with what it holds so far, the latest first. -/
inductive Frame where
  | array (elements : List Json)
  | object (members : List (Option (List Char) × Json)) (name : Option (List Char))

mutual

/-- Reads a value where one has to stand, and then all that is still open around it. -/
def readValue? : List Frame → List Token → Option (Json × List Token)
  | frames, .null :: rest => finish? frames .null rest
  | frames, .bool value :: rest => finish? frames (.bool value) rest
  | frames, .number natural :: rest => finish? frames (.number natural) rest
  | frames, .string text :: rest => finish? frames (.string text) rest
  | frames, .openBracket :: .closeBracket :: rest => finish? frames (.array []) rest
  | frames, .openBracket :: rest => readValue? (.array [] :: frames) rest
  | frames, .openBrace :: .closeBrace :: rest => finish? frames (.object []) rest
  | frames, .openBrace :: .string name :: .colon :: rest => readValue? (.object [] name :: frames) rest
  | _, _ => none

def finish? : List Frame → Json → List Token → Option (Json × List Token)
  | [], value, rest => some (value, rest)
  | .array elements :: frames, value, .comma :: rest =>
      readValue? (.array (value :: elements) :: frames) rest
  | .array elements :: frames, value, .closeBracket :: rest =>
      finish? frames (.array (value :: elements).reverse) rest
  | .object members name :: frames, value, .comma :: .string next :: .colon :: rest =>
      readValue? (.object ((name, value) :: members) next :: frames) rest
  | .object members name :: frames, value, .closeBrace :: rest =>
      finish? frames (.object ((name, value) :: members).reverse) rest
  | _, _, _ => none

end

def read? (text : String) : Option Json := do
  let tokens ← Token.scan? text.toList
  match ← readValue? [] tokens with
  | (value, []) => some value
  | _ => none

end Json

end LayeredCache
