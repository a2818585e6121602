/-!
# JSON tokens

The words of a JSON text: punctuation, literals, numbers and strings, with blanks between them. Reading is strict: no
leading zeros, no bare control characters, no escapes but the standard ones.
-/

set_option autoImplicit false

namespace LayeredCache.Json

inductive Token where
  | openBrace | closeBrace | openBracket | closeBracket | colon | comma
  | null
  | bool (value : Bool)
  /-- A number, with its value when it is written with digits alone. -/
  | number (natural : Option Nat)
  /-- A string, with its text when every escape in it names a character. -/
  | string (text : Option (List Char))
  deriving DecidableEq, Repr

def isBlank (character : Char) : Bool :=
  character == ' ' || character == '\t' || character == '\n' || character == '\r'

def isDigit (character : Char) : Bool := '0' ≤ character && character ≤ '9'

def digitsValue (digits : List Char) : Nat :=
  digits.foldl (fun value digit => 10 * value + (digit.toNat - '0'.toNat)) 0

def hexValue? (character : Char) : Option Nat :=
  if '0' ≤ character ∧ character ≤ '9' then some (character.toNat - '0'.toNat)
  else if 'a' ≤ character ∧ character ≤ 'f' then some (character.toNat - 'a'.toNat + 10)
  else if 'A' ≤ character ∧ character ≤ 'F' then some (character.toNat - 'A'.toNat + 10)
  else none

/-- What stands in a string: a character, or a code unit of 16 bits. -/
inductive Piece where
  | character (character : Char)
  | unit (code : Nat)
  deriving DecidableEq, Repr

def shortEscape? : Char → Option Char
  | '"' => some '"'
  | '\\' => some '\\'
  | '/' => some '/'
  | 'b' => some '\x08'
  | 'f' => some '\x0c'
  | 'n' => some '\n'
  | 'r' => some '\r'
  | 't' => some '\t'
  | _ => none

def stringPieces? : List Char → Option (List Piece × List Char)
  | [] => none
  | '"' :: rest => some ([], rest)
  | '\\' :: 'u' :: a :: b :: c :: d :: rest => do
      let a ← hexValue? a
      let b ← hexValue? b
      let c ← hexValue? c
      let d ← hexValue? d
      let (pieces, rest) ← stringPieces? rest
      some (.unit (((a * 16 + b) * 16 + c) * 16 + d) :: pieces, rest)
  | '\\' :: escape :: rest => do
      let character ← shortEscape? escape
      let (pieces, rest) ← stringPieces? rest
      some (.character character :: pieces, rest)
  | character :: rest =>
      if character.toNat < 0x20 ∨ character = '\\' then none
      else do
        let (pieces, rest) ← stringPieces? rest
        some (.character character :: pieces, rest)

/-- The first of a pair of code units that together name a character. -/
def isLeading (code : Nat) : Bool := 0xd800 ≤ code && code < 0xdc00

def isTrailing (code : Nat) : Bool := 0xdc00 ≤ code && code < 0xe000

def piecesText? : List Piece → Option (List Char)
  | [] => some []
  | .character character :: rest => (piecesText? rest).map (character :: ·)
  | .unit code :: rest =>
      if isLeading code then
        match rest with
        | .unit next :: rest =>
            if isTrailing next then
              (piecesText? rest).map
                (Char.ofNat (0x10000 + (code - 0xd800) * 0x400 + (next - 0xdc00)) :: ·)
            else none
        | _ => none
      else if isTrailing code then none
      else (piecesText? rest).map (Char.ofNat code :: ·)

def digits? (text : List Char) : Option (List Char × List Char) :=
  match text.takeWhile isDigit with
  | [] => none
  | digits => some (digits, text.dropWhile isDigit)

/-- What follows a fraction, if one stands at the start, and whether one does. -/
def fraction? : List Char → Option (Bool × List Char)
  | '.' :: rest => (digits? rest).map fun found => (true, found.2)
  | rest => some (false, rest)

def dropSign : List Char → List Char
  | '+' :: rest => rest
  | '-' :: rest => rest
  | text => text

def exponent? : List Char → Option (Bool × List Char)
  | [] => some (false, [])
  | marker :: rest =>
      if marker = 'e' ∨ marker = 'E' then (digits? (dropSign rest)).map fun found => (true, found.2)
      else some (false, marker :: rest)

/-- A number without its sign: whether digits alone write it, its digits, and what follows it. -/
def unsigned? (text : List Char) : Option (Bool × List Char × List Char) := do
  let (digits, rest) ← digits? text
  if digits.head? = some '0' ∧ digits.length ≠ 1 then none
  else do
    let (broken, rest) ← fraction? rest
    let (scaled, rest) ← exponent? rest
    some (!broken && !scaled, digits, rest)

def number? : List Char → Option (Option Nat × List Char)
  | '-' :: rest => (unsigned? rest).map fun found => (none, found.2.2)
  | text => (unsigned? text).map fun found =>
      (if found.1 then some (digitsValue found.2.1) else none, found.2.2)

def Token.first? : List Char → Option (Token × List Char)
  | '\x7b' :: rest => some (.openBrace, rest)
  | '\x7d' :: rest => some (.closeBrace, rest)
  | '[' :: rest => some (.openBracket, rest)
  | ']' :: rest => some (.closeBracket, rest)
  | ':' :: rest => some (.colon, rest)
  | ',' :: rest => some (.comma, rest)
  | 'n' :: 'u' :: 'l' :: 'l' :: rest => some (.null, rest)
  | 't' :: 'r' :: 'u' :: 'e' :: rest => some (.bool true, rest)
  | 'f' :: 'a' :: 'l' :: 's' :: 'e' :: rest => some (.bool false, rest)
  | '"' :: rest => (stringPieces? rest).map fun found => (.string (piecesText? found.1), found.2)
  | text => (number? text).map fun found => (.number found.1, found.2)

private theorem stringPieces?_length : ∀ {text : List Char} {pieces : List Piece} {rest : List Char},
    stringPieces? text = some (pieces, rest) → rest.length < text.length := by
  intro text
  fun_induction stringPieces? text with
  | case1 => simp
  | case2 rest => simp_all
  | case3 a b c d rest ih =>
      intro pieces after found
      simp only [Option.bind_eq_bind, Option.bind_eq_some_iff] at found
      obtain ⟨_, _, _, _, _, _, _, _, ⟨inner, innerRest⟩, next, found⟩ := found
      have shorter := ih next
      simp only [Option.some.injEq, Prod.mk.injEq] at found
      simp only [List.length_cons, ← found.2]
      omega
  | case4 escape rest _ ih =>
      intro pieces after found
      simp only [Option.bind_eq_bind, Option.bind_eq_some_iff] at found
      obtain ⟨_, _, ⟨inner, innerRest⟩, next, found⟩ := found
      have shorter := ih next
      simp only [Option.some.injEq, Prod.mk.injEq] at found
      simp only [List.length_cons, ← found.2]
      omega
  | case5 => simp
  | case6 character rest _ _ _ _ ih =>
      intro pieces after found
      simp only [Option.bind_eq_bind, Option.bind_eq_some_iff] at found
      obtain ⟨⟨inner, innerRest⟩, next, found⟩ := found
      have shorter := ih next
      simp only [Option.some.injEq, Prod.mk.injEq] at found
      simp only [List.length_cons, ← found.2]
      omega

private theorem digits?_length {text digits rest : List Char}
    (found : digits? text = some (digits, rest)) : rest.length < text.length := by
  unfold digits? at found
  split at found
  · cases found
  next nonempty =>
    have parts := congrArg List.length (List.takeWhile_append_dropWhile (p := isDigit) (l := text))
    have positive : 0 < (text.takeWhile isDigit).length := List.length_pos_iff.mpr nonempty
    simp only [Option.some.injEq, Prod.mk.injEq] at found
    rw [List.length_append] at parts
    rw [← found.2]
    omega

private theorem fraction?_length {text rest : List Char} {broken : Bool}
    (found : fraction? text = some (broken, rest)) : rest.length ≤ text.length := by
  unfold fraction? at found
  split at found
  · obtain ⟨⟨digits, after⟩, next, same⟩ := Option.map_eq_some_iff.mp found
    have shorter := digits?_length next
    simp only [Prod.mk.injEq] at same
    simp only [List.length_cons, ← same.2]
    omega
  · simp_all

private theorem dropSign_length (text : List Char) : (dropSign text).length ≤ text.length := by
  unfold dropSign
  split <;> simp

private theorem exponent?_length {text rest : List Char} {scaled : Bool}
    (found : exponent? text = some (scaled, rest)) : rest.length ≤ text.length := by
  cases text with
  | nil => simp_all [exponent?]
  | cons marker after =>
      rw [exponent?] at found
      split at found
      · obtain ⟨⟨digits, beyond⟩, next, same⟩ := Option.map_eq_some_iff.mp found
        have shorter := digits?_length next
        have unsigned := dropSign_length after
        simp only [Prod.mk.injEq] at same
        simp only [List.length_cons, ← same.2]
        omega
      · simp_all

private theorem unsigned?_length {text digits rest : List Char} {plain : Bool}
    (found : unsigned? text = some (plain, digits, rest)) : rest.length < text.length := by
  simp only [unsigned?, Option.bind_eq_bind, Option.bind_eq_some_iff] at found
  obtain ⟨⟨leading, afterDigits⟩, isDigits, found⟩ := found
  have first := digits?_length isDigits
  split at found
  · cases found
  · obtain ⟨⟨broken, afterFraction⟩, isFraction, ⟨scaled, afterExponent⟩, isExponent, found⟩ := by
      simpa only [Option.bind_eq_some_iff] using found
    have second := fraction?_length isFraction
    have third := exponent?_length isExponent
    simp only at third
    simp only [Option.some.injEq, Prod.mk.injEq] at found
    rw [← found.2.2]
    omega

private theorem number?_length {text rest : List Char} {natural : Option Nat}
    (found : number? text = some (natural, rest)) : rest.length < text.length := by
  unfold number? at found
  split at found
  all_goals
    obtain ⟨⟨plain, digits, after⟩, next, same⟩ := Option.map_eq_some_iff.mp found
    have shorter := unsigned?_length next
    simp only [Prod.mk.injEq] at same
    simp only [List.length_cons, ← same.2]
    omega

theorem Token.first?_length {text rest : List Char} {token : Token}
    (found : Token.first? text = some (token, rest)) : rest.length < text.length := by
  unfold Token.first? at found
  split at found
  case h_10 =>
    obtain ⟨⟨pieces, after⟩, next, same⟩ := Option.map_eq_some_iff.mp found
    have shorter := stringPieces?_length next
    simp only [Prod.mk.injEq] at same
    simp only [List.length_cons, ← same.2]
    omega
  case h_11 =>
    obtain ⟨⟨natural, after⟩, next, same⟩ := Option.map_eq_some_iff.mp found
    have shorter := number?_length next
    simp only [Prod.mk.injEq] at same
    rw [← same.2]
    exact shorter
  all_goals
    simp only [Option.some.injEq, Prod.mk.injEq] at found
    simp only [List.length_cons, ← found.2]
    omega

def Token.scan? : List Char → Option (List Token)
  | [] => some []
  | character :: rest =>
      if isBlank character then scan? rest
      else
        match _found : Token.first? (character :: rest) with
        | none => none
        | some (token, rest) => (scan? rest).map (token :: ·)
  termination_by text => text.length
  decreasing_by
    · simp
    · exact Token.first?_length _found

end LayeredCache.Json
