import LayeredCache.Json.Reader
import LayeredCache.Json.Token
import Mathlib.Data.List.Forall2

/-! How JSON values are written. Every value has many texts: blanks may stand around each value, name and mark of
punctuation, characters of strings may be spelled out, and numbers may have fractions and exponents. -/

set_option autoImplicit false

namespace LayeredCache.Json

def Blanks (text : List Char) : Prop := ∀ character ∈ text, character ∈ [' ', '\t', '\n', '\r']

structure Digits (text : List Char) : Prop where
  nonempty : text ≠ []
  digits : ∀ character ∈ text, character.isDigit

/-- The digits of a whole number, without a zero in front of others. -/
structure Whole (text : List Char) : Prop extends Digits text where
  led : text.head? = some '0' → text = ['0']

inductive Fraction : List Char → Prop where
  | absent : Fraction []
  | present {digits : List Char} : Digits digits → Fraction ('.' :: digits)

inductive Exponent : List Char → Prop where
  | absent : Exponent []
  | present {marker : Char} {sign digits : List Char} : marker ∈ ['e', 'E'] → sign ∈ [[], ['+'], ['-']] →
      Digits digits → Exponent (marker :: (sign ++ digits))

/-- A number as it is written, with its value when digits alone write it. -/
inductive Numeral : Option Nat → List Char → Prop where
  | natural {digits : List Char} : Whole digits → Numeral (some (Nat.ofDigitChars 10 digits 0)) digits
  | broken {digits fraction exponent : List Char} : Whole digits → Fraction fraction → Exponent exponent →
      fraction ++ exponent ≠ [] → Numeral none (digits ++ fraction ++ exponent)
  | negative {digits fraction exponent : List Char} : Whole digits → Fraction fraction → Exponent exponent →
      Numeral none ('-' :: (digits ++ fraction ++ exponent))

/-- A digit of a number to the base sixteen, of either case. -/
def HexDigit (value : Nat) (character : Char) : Prop :=
  value < 16 ∧ (character = value.digitChar ∨ character = value.digitChar.toUpper)

/-- What a piece of a string may be written as. -/
inductive PieceText : Piece → List Char → Prop where
  | plain {character : Char} : 0x20 ≤ character.toNat → character ≠ '"' → character ≠ '\\' →
      PieceText (.character character) [character]
  | escaped {escape character : Char} :
      (escape, character) ∈ [('"', '"'), ('\\', '\\'), ('/', '/'), ('b', '\x08'), ('f', '\x0c'), ('n', '\n'),
        ('r', '\r'), ('t', '\t')] →
      PieceText (.character character) ['\\', escape]
  | unit {first second third fourth : Nat} {a b c d : Char} : HexDigit first a → HexDigit second b →
      HexDigit third c → HexDigit fourth d →
      PieceText (.unit (first * 0x1000 + second * 0x100 + third * 0x10 + fourth)) ['\\', 'u', a, b, c, d]

/-- The text that the pieces of a string stand for: a character is itself, one unit that names it, or two if it lies
beyond the range of one. -/
inductive Denotes : List Piece → List Char → Prop where
  | nil : Denotes [] []
  | character {character : Char} {pieces : List Piece} {text : List Char} : Denotes pieces text →
      Denotes (.character character :: pieces) (character :: text)
  | unit {character : Char} {pieces : List Piece} {text : List Char} : Denotes pieces text →
      Denotes (.unit character.toNat :: pieces) (character :: text)
  | pair {character : Char} {pieces : List Piece} {text : List Char} : 0x10000 ≤ character.toNat →
      Denotes pieces text →
      Denotes (.unit (0xd800 + (character.toNat - 0x10000) / 0x400) ::
        .unit (0xdc00 + (character.toNat - 0x10000) % 0x400) :: pieces) (character :: text)

/-- A string between its quotes, with the text that it stands for, if there is one. -/
inductive Quoted : Option (List Char) → List Char → Prop where
  | mk {text : Option (List Char)} {pieces : List Piece} {parts : List (List Char)} :
      List.Forall₂ PieceText pieces parts → (∀ meant, text = some meant ↔ Denotes pieces meant) →
      Quoted text ('"' :: (parts.flatten ++ ['"']))

/-- A name with its quotes and the blanks around it. -/
inductive Label : Option (List Char) → List Char → Prop where
  | mk {name : Option (List Char)} {before quoted after : List Char} : Blanks before → Quoted name quoted →
      Blanks after → Label name (before ++ quoted ++ after)

/-- A member of an object: its name and its value, each with a text of its own. -/
structure Member where
  name : Option (List Char)
  label : List Char
  value : Json
  text : List Char

def Member.whole (member : Member) : List Char := member.label ++ ':' :: member.text

/-- A value as it is written, with the blanks around it. -/
inductive Written : Json → List Char → Prop where
  | null : Written .null ['n', 'u', 'l', 'l']
  | true : Written (.bool true) ['t', 'r', 'u', 'e']
  | false : Written (.bool false) ['f', 'a', 'l', 's', 'e']
  | number {natural : Option Nat} {text : List Char} : Numeral natural text → Written (.number natural) text
  | string {text : Option (List Char)} {quoted : List Char} : Quoted text quoted → Written (.string text) quoted
  | emptyArray {blanks : List Char} : Blanks blanks → Written (.array []) ('[' :: (blanks ++ [']']))
  | array {elements : List (Json × List Char)} : elements ≠ [] →
      (∀ element ∈ elements, Written element.1 element.2) →
      Written (.array (elements.map Prod.fst)) ('[' :: ([','].intercalate (elements.map Prod.snd) ++ [']']))
  | emptyObject {blanks : List Char} : Blanks blanks → Written (.object []) ('\x7b' :: (blanks ++ ['\x7d']))
  | object {members : List Member} : members ≠ [] → (∀ member ∈ members, Label member.name member.label) →
      (∀ member ∈ members, Written member.value member.text) →
      Written (.object (members.map fun member => (member.name, member.value)))
        ('\x7b' :: ([','].intercalate (members.map Member.whole) ++ ['\x7d']))
  | padded {value : Json} {before text after : List Char} : Blanks before → Written value text → Blanks after →
      Written value (before ++ text ++ after)

end LayeredCache.Json
