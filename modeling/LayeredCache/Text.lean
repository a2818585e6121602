/-!
# Text

Exact decimals, quoted text and records. A count of tenths, thousandths or other decimal parts is written with all its
nonzero digits and no more: trailing zeros of the fraction are dropped, and with them the point when nothing is left. In
text between double quotes, quotes, backslashes and control characters are spelled out. A record is written as its name
with its labelled fields in braces, on one line or with one field a line, four spaces deeper than the record; one that
shows only part of itself ends in two points.
-/

set_option autoImplicit false

namespace LayeredCache.Text

/-- The digits of a fraction of so many places, without the zeros at its end. -/
def fractionDigits (places fraction : Nat) : List Char :=
  let digits := (toString fraction).toList
  let padded := List.replicate (places - digits.length) '0' ++ digits
  (padded.reverse.dropWhile (· == '0')).reverse

def decimal (count places : Nat) : String :=
  let unit := Nat.pow 10 places
  let whole := toString (count / unit)
  match fractionDigits places (count % unit) with
  | [] => whole
  | digits => whole ++ "." ++ String.ofList digits

/-! ### Quoted text -/

/-- Control characters: those below the space, and those from the delete character to U+009F. -/
def isControl (character : Char) : Bool :=
  character.toNat < 0x20 || (0x7f ≤ character.toNat && character.toNat < 0xa0)

def spelled (character : Char) : List Char :=
  match character with
  | '"' => ['\\', '"']
  | '\\' => ['\\', '\\']
  | '\n' => ['\\', 'n']
  | '\r' => ['\\', 'r']
  | '\t' => ['\\', 't']
  | '\x00' => ['\\', '0']
  | _ =>
      if isControl character then
        ['\\', 'u', '\x7b'] ++ Nat.toDigits 16 character.toNat ++ ['\x7d']
      else [character]

def quoted (text : String) : String :=
  String.ofList ('"' :: text.toList.flatMap spelled ++ ['"'])

/-! ### Records -/

mutual

inductive Layout where
  | atom (text : String)
  | record (name : String) (fields : Fields) (partly : Bool)

inductive Fields where
  | nil
  | cons (label : String) (value : Layout) (rest : Fields)

end

def Fields.ofList : List (String × Layout) → Fields
  | [] => .nil
  | (label, value) :: rest => .cons label value (ofList rest)

mutual

def Layout.oneLine : Layout → String
  | .atom text => text
  | .record name fields partly =>
      name ++ " \x7b " ++ String.intercalate ", " (fields.oneLine ++ if partly then [".."] else []) ++
        " \x7d"

def Fields.oneLine : Fields → List String
  | .nil => []
  | .cons label value rest => (label ++ ": " ++ value.oneLine) :: rest.oneLine

end

def indentation (depth : Nat) : String := String.ofList (List.replicate (4 * depth) ' ')

mutual

/-- A value over several lines, its first line going on where the text stands. -/
def Layout.lines (depth : Nat) : Layout → String
  | .atom text => text
  | .record name fields partly =>
      name ++ " \x7b\n" ++ fields.lines (depth + 1) ++
        (if partly then indentation (depth + 1) ++ "..\n" else "") ++ indentation depth ++ "\x7d"

def Fields.lines (depth : Nat) : Fields → String
  | .nil => ""
  | .cons label value rest =>
      indentation depth ++ label ++ ": " ++ value.lines depth ++ ",\n" ++ rest.lines depth

end

end LayeredCache.Text
