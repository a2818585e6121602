import LayeredCache.Proofs.Json.Strings

/-! Texts are taken apart into the tokens that they are written of. A token is taken from the front of what is left, and
only a number has to be told from what follows it: nothing may follow that could go on with it. -/

set_option autoImplicit false

namespace LayeredCache.Json

variable {text rest after digits fraction exponent : List Char} {tokens others : List Token} {token : Token}

/-! ### Numbers -/

/-- A text that does not go on with digits. -/
def NoDigits (text : List Char) : Prop := ∀ character ∈ text.head?, ¬character.isDigit

/-- A text that does not go on with a whole number. -/
def NoFraction (text : List Char) : Prop := ∀ character ∈ text.head?, ¬character.isDigit ∧ character ≠ '.'

/-- A text that does not go on with a number. -/
def Ends (text : List Char) : Prop :=
  ∀ character ∈ text.head?, ¬character.isDigit ∧ character ≠ '.' ∧ character ≠ 'e' ∧ character ≠ 'E'

theorem Ends.noFraction (ends : Ends text) : NoFraction text := fun character first =>
  ⟨(ends character first).1, (ends character first).2.1⟩

theorem NoFraction.noDigits (clear : NoFraction text) : NoDigits text := fun character first =>
  (clear character first).1

theorem Fraction.noDigits (written : Fraction fraction) (clear : NoDigits rest) : NoDigits (fraction ++ rest) := by
  cases written with
  | absent => exact clear
  | present _ =>
      intro character first
      cases first
      decide

theorem Exponent.noFraction (written : Exponent exponent) (clear : NoFraction rest) : NoFraction (exponent ++ rest) := by
  cases written with
  | absent => exact clear
  | present marked _ _ =>
      intro character first
      cases first
      rcases List.mem_pair.mp marked with rfl | rfl <;> decide

theorem digits_singleton {character : Char} (digit : character.isDigit) : Digits [character] :=
  ⟨List.cons_ne_nil _ _, List.forall_mem_singleton.mpr digit⟩

theorem whole_singleton {character : Char} (digit : character.isDigit) : Whole [character] :=
  ⟨digits_singleton digit, fun led => congrArg (fun first => [first]) (Option.some.inj led)⟩

theorem Digits.head (written : Digits digits) : ∃ character more, digits = character :: more ∧ character.isDigit := by
  cases digits with
  | nil => exact absurd rfl written.nonempty
  | cons character more => exact ⟨character, more, rfl, written.digits character List.mem_cons_self⟩

theorem digits?_append (written : Digits digits) (clear : NoDigits rest) :
    digits? (digits ++ rest) = some (digits, rest) := by
  have stops : rest.takeWhile isDigit = [] ∧ rest.dropWhile isDigit = rest := by
    cases rest with
    | nil => exact ⟨rfl, rfl⟩
    | cons character more =>
        have other : ¬isDigit character = true := clear character rfl
        exact ⟨List.takeWhile_cons_of_neg other, List.dropWhile_cons_of_neg other⟩
  have inside : ∀ character ∈ digits, isDigit character = true := written.digits
  have taken : (digits ++ rest).takeWhile isDigit = digits := by
    rw [List.takeWhile_append_of_pos inside, stops.1, List.append_nil]
  have left : (digits ++ rest).dropWhile isDigit = rest := by
    rw [List.dropWhile_append_of_pos inside, stops.2]
  obtain ⟨character, more, rfl, -⟩ := written.head
  rw [digits?, taken, left]

theorem fraction?_append (written : Fraction fraction) (clear : NoFraction rest) :
    fraction? (fraction ++ rest) = some (!fraction.isEmpty, rest) := by
  cases written with
  | absent =>
      rw [List.nil_append, fraction?.eq_def]
      split
      · exact absurd rfl (clear _ rfl).2
      · rfl
  | present written =>
      rw [List.cons_append, fraction?, digits?_append written clear.noDigits]
      rfl

theorem dropSign_append {sign : List Char} (signed : sign ∈ [[], ['+'], ['-']]) (written : Digits digits) :
    dropSign (sign ++ (digits ++ rest)) = digits ++ rest := by
  obtain ⟨character, more, rfl, digit⟩ := written.head
  simp only [List.mem_cons, List.not_mem_nil, or_false] at signed
  rcases signed with rfl | rfl | rfl
  · rw [List.nil_append, List.cons_append, dropSign.eq_def]
    split
    · exact absurd digit (by simp_all)
    · exact absurd digit (by simp_all)
    · rfl
  · rfl
  · rfl

theorem exponent?_append (written : Exponent exponent) (ends : Ends rest) :
    exponent? (exponent ++ rest) = some (!exponent.isEmpty, rest) := by
  cases written with
  | absent =>
      cases rest with
      | nil => rfl
      | cons character more =>
          obtain ⟨-, -, lower, upper⟩ := ends character rfl
          rw [List.nil_append, exponent?, if_neg (not_or.mpr ⟨lower, upper⟩)]
          rfl
  | present marked signed written =>
      rw [List.cons_append, List.append_assoc, exponent?, if_pos (List.mem_pair.mp marked),
        dropSign_append signed written, digits?_append written ends.noFraction.noDigits]
      rfl

theorem unsigned?_append (whole : Whole digits) (broken : Fraction fraction) (scaled : Exponent exponent)
    (ends : Ends rest) : unsigned? (digits ++ fraction ++ exponent ++ rest) =
      some (fraction.isEmpty && exponent.isEmpty, digits, rest) := by
  have clear := scaled.noFraction ends.noFraction
  have plain : ¬(digits.head? = some '0' ∧ digits.length ≠ 1) := fun led =>
    led.2 (congrArg List.length (whole.led led.1))
  rw [List.append_assoc, List.append_assoc, unsigned?, digits?_append whole.toDigits (broken.noDigits clear.noDigits)]
  simp only [Option.bind_eq_bind, Option.bind_some, if_neg plain, fraction?_append broken clear,
    exponent?_append scaled ends, Bool.not_not]

theorem number?_of_digit {character : Char} (digit : character.isDigit) (more : List Char) :
    number? (character :: more) = (unsigned? (character :: more)).map fun found =>
      (if found.1 then some (digitsValue found.2.1) else none, found.2.2) := by
  refine number?.eq_2 _ fun rest same => ?_
  obtain ⟨rfl, -⟩ := List.cons.inj same
  exact absurd digit (by decide)

/-- A number that starts with a digit is read up to its end. -/
theorem number?_append (whole : Whole digits) (broken : Fraction fraction) (scaled : Exponent exponent)
    (ends : Ends rest) : number? (digits ++ fraction ++ exponent ++ rest) =
      some (if fraction ++ exponent = [] then some (Nat.ofDigitChars 10 digits 0) else none, rest) := by
  have read := unsigned?_append whole broken scaled ends
  obtain ⟨character, more, rfl, digit⟩ := whole.toDigits.head
  rw [List.cons_append, List.cons_append, List.cons_append] at read ⊢
  rw [number?_of_digit digit, read, Option.map_some, Nat.ofDigitChars_eq_foldl, digitsValue]
  cases fraction <;> cases exponent <;> rfl

/-! ### Tokens -/

theorem first?_of_number {character : Char} (start : character.isDigit ∨ character = '-') (more : List Char) :
    Token.first? (character :: more) =
      (number? (character :: more)).map fun found => (.number found.1, found.2) := by
  rw [Token.first?.eq_def]
  split
  case h_11 => rfl
  all_goals
    rename_i same
    obtain ⟨rfl, -⟩ := List.cons.inj same
    exact absurd start (by decide)

theorem first?_numeral {natural : Option Nat} (written : Numeral natural text) (ends : Ends rest) :
    Token.first? (text ++ rest) = some (.number natural, rest) := by
  cases written with
  | natural whole =>
      have read := number?_append whole .absent .absent ends
      rw [List.append_nil, List.append_nil] at read
      obtain ⟨character, more, rfl, digit⟩ := whole.toDigits.head
      rw [List.cons_append] at read ⊢
      rw [first?_of_number (.inl digit), read]
      rfl
  | broken whole broken scaled some =>
      have read := number?_append whole broken scaled ends
      obtain ⟨character, more, rfl, digit⟩ := whole.toDigits.head
      rw [List.cons_append, List.cons_append, List.cons_append] at read ⊢
      rw [first?_of_number (.inl digit), read, if_neg some]
      rfl
  | negative whole broken scaled =>
      rw [List.cons_append, first?_of_number (.inr rfl), number?, unsigned?_append whole broken scaled ends]
      rfl

theorem first?_quoted {name : Option (List Char)} (written : Quoted name text) (rest : List Char) :
    Token.first? (text ++ rest) = some (.string name, rest) := by
  obtain ⟨inner, rfl, read⟩ := stringPieces?_quoted written rest
  have string := congrArg (Option.map fun found : Option (List Char) × List Char => (Token.string found.1, found.2)) read
  rw [Option.map_map] at string
  exact string

/-- No token starts with a blank. -/
theorem first?_blank {character : Char} (blank : isBlank character) (more : List Char) :
    Token.first? (character :: more) = none := by
  simp only [isBlank, Bool.or_eq_true, beq_iff_eq] at blank
  rcases blank with ((rfl | rfl) | rfl) | rfl <;> rfl

/-- Some tokens that are taken from the front of a text, with what is left of it. -/
def Scans (text : List Char) (tokens : List Token) (rest : List Char) : Prop :=
  Token.scan? text = (Token.scan? rest).map (tokens ++ ·)

theorem Scans.append (first : Scans text tokens rest) (second : Scans rest others after) :
    Scans text (tokens ++ others) after := by
  rw [Scans, first, second, Option.map_map]
  congr 1
  funext more
  exact (List.append_assoc tokens others more).symm

theorem scans_of_first? (found : Token.first? text = some (token, rest)) : Scans text [token] rest := by
  cases text with
  | nil => cases found
  | cons character more =>
      have visible : ¬isBlank character := by
        intro blank
        rw [first?_blank blank] at found
        cases found
      rw [Scans, Token.scan?, if_neg visible]
      split
      next missing => exact absurd (missing.symm.trans found) (by simp)
      next taken left other =>
        obtain ⟨rfl, rfl⟩ := Prod.mk.inj (Option.some.inj (other.symm.trans found))
        rfl

theorem scans_blanks (blanks : Blanks text) (rest : List Char) : Scans (text ++ rest) [] rest := by
  induction text with
  | nil => exact Option.map_id'.symm
  | cons character more ih =>
      obtain ⟨blank, others⟩ := List.forall_mem_cons.mp blanks
      have skipped : isBlank character := by
        simpa only [isBlank, Bool.or_eq_true, beq_iff_eq, List.mem_cons, List.not_mem_nil, or_false, or_assoc] using blank
      rw [Scans, List.cons_append, Token.scan?, if_pos skipped]
      exact ih others

end LayeredCache.Json
