import LayeredCache.Json.Reader
import LayeredCache.Proofs.Json.Scanning

/-! Every text of a value is read as that value. The tokens of a text are the same whatever ends it, and they are read
with whatever containers are open around them, so what is inside a container is read on its own. -/

set_option autoImplicit false

namespace LayeredCache.Json

variable {value : Json} {text : List Char} {tokens : List Token}

/-- A text that is taken apart into tokens before anything that ends it. -/
def Spells (text : List Char) (tokens : List Token) : Prop := ∀ rest, Ends rest → Scans (text ++ rest) tokens rest

/-- Tokens that are read as a value in every place where one has to stand. -/
def Reads (tokens : List Token) (value : Json) : Prop :=
  ∀ (frames : List Frame) (rest : List Token), readValue? frames (tokens ++ rest) = finish? frames value rest

/-! ### Texts and their tokens -/

theorem ends_cons {character : Char}
    (stops : ¬character.isDigit ∧ character ≠ '.' ∧ character ≠ 'e' ∧ character ≠ 'E') (rest : List Char) :
    Ends (character :: rest) := by
  intro first same
  cases same
  exact stops

theorem Blanks.ends {blanks rest : List Char} (only : Blanks blanks) (ends : Ends rest) : Ends (blanks ++ rest) := by
  cases blanks with
  | nil => exact ends
  | cons character more =>
      have blank := only character List.mem_cons_self
      simp only [List.mem_cons, List.not_mem_nil, or_false] at blank
      refine ends_cons ?_ (more ++ rest)
      rcases blank with rfl | rfl | rfl | rfl <;> decide

theorem scans_padded {before after rest : List Char} (leading : Blanks before) (trailing : Blanks after)
    (scans : Scans (text ++ (after ++ rest)) tokens (after ++ rest)) :
    Scans (before ++ text ++ after ++ rest) tokens rest := by
  have whole := ((scans_blanks leading _).append scans).append (scans_blanks trailing rest)
  simpa only [List.append_assoc, List.nil_append, List.append_nil] using whole

theorem Spells.padded {before after : List Char} (spells : Spells text tokens) (leading : Blanks before)
    (trailing : Blanks after) : Spells (before ++ text ++ after) tokens := fun rest ends =>
  scans_padded leading trailing (spells (after ++ rest) (trailing.ends ends))

theorem scans_label {name : Option (List Char)} {label : List Char} (written : Label name label) (rest : List Char) :
    Scans (label ++ ':' :: rest) [.string name, .colon] rest := by
  cases written with
  | mk leading quoted trailing =>
      have named := scans_padded leading trailing (scans_of_first? (first?_quoted quoted (_ ++ ':' :: rest)))
      exact named.append (scans_of_first? rfl)

/-- The blanks of a container with nothing in it. -/
theorem scans_empty {blanks rest : List Char} {left right : Char} {opening closing : Token} (only : Blanks blanks)
    (opens : Token.first? (left :: (blanks ++ right :: rest)) = some (opening, blanks ++ right :: rest))
    (closes : Token.first? (right :: rest) = some (closing, rest)) :
    Scans (left :: (blanks ++ [right]) ++ rest) [opening, closing] rest := by
  have whole := ((scans_of_first? opens).append (scans_blanks only _)).append (scans_of_first? closes)
  simpa only [List.cons_append, List.append_assoc, List.nil_append] using whole

/-! ### Containers -/

/-- No value starts where an array is closed. -/
theorem readValue?_closeBracket (frames : List Frame) (rest : List Token) :
    readValue? frames (.closeBracket :: rest) = none := by
  rw [readValue?.eq_def]

/-- The elements of an array are read one by one, on top of those that its frame holds. -/
theorem elements_read {first : Json × List Char} {others : List (Json × List Char)}
    (each : ∀ element ∈ first :: others, ∃ tokens, Spells element.2 tokens ∧ Reads tokens element.1) :
    ∃ tokens, (∀ rest, Scans ([','].intercalate ((first :: others).map Prod.snd) ++ ']' :: rest) tokens rest) ∧
      ∀ (elements : List Json) (frames : List Frame) (rest : List Token),
        readValue? (.array elements :: frames) (tokens ++ rest) =
          finish? frames (.array (elements.reverse ++ (first :: others).map Prod.fst)) rest := by
  induction others generalizing first with
  | nil =>
      obtain ⟨tokens, spells, reads⟩ := each first List.mem_cons_self
      refine ⟨tokens ++ [.closeBracket], ?_, ?_⟩
      · intro rest
        have ends : Ends (']' :: rest) := ends_cons (by decide) rest
        simpa using (spells _ ends).append (scans_of_first? rfl)
      · intro elements frames rest
        rw [List.append_assoc, reads, List.singleton_append, finish?, List.reverse_cons]
        rfl
  | cons second others ih =>
      obtain ⟨tokens, spells, reads⟩ := each first List.mem_cons_self
      obtain ⟨more, scans, continues⟩ := ih fun element listed => each element (List.mem_cons_of_mem _ listed)
      refine ⟨tokens ++ .comma :: more, ?_, ?_⟩
      · intro rest
        have ends : ∀ text, Ends (',' :: text) := ends_cons (by decide)
        have whole := (spells _ (ends _)).append ((scans_of_first? rfl).append (scans rest))
        simpa using whole
      · intro elements frames rest
        rw [List.append_assoc, reads, List.cons_append, finish?, continues, List.reverse_cons, List.append_assoc]
        rfl

/-- The members of an object are read after the name of the first, which its frame holds with those before it. -/
theorem members_read {first : Member} {others : List Member}
    (labels : ∀ member ∈ first :: others, Label member.name member.label)
    (each : ∀ member ∈ first :: others, ∃ tokens, Spells member.text tokens ∧ Reads tokens member.value) :
    ∃ tokens, (∀ rest, Scans ([','].intercalate ((first :: others).map Member.whole) ++ '\x7d' :: rest)
        (.string first.name :: .colon :: tokens) rest) ∧
      ∀ (members : List (Option (List Char) × Json)) (frames : List Frame) (rest : List Token),
        readValue? (.object members first.name :: frames) (tokens ++ rest) =
          finish? frames (.object (members.reverse ++
            (first :: others).map fun member => (member.name, member.value))) rest := by
  induction others generalizing first with
  | nil =>
      obtain ⟨tokens, spells, reads⟩ := each first List.mem_cons_self
      refine ⟨tokens ++ [.closeBrace], ?_, ?_⟩
      · intro rest
        have ends : Ends ('\x7d' :: rest) := ends_cons (by decide) rest
        have whole := (scans_label (labels first List.mem_cons_self) _).append
          ((spells _ ends).append (scans_of_first? rfl))
        simpa [Member.whole] using whole
      · intro members frames rest
        rw [List.append_assoc, reads, List.singleton_append, finish?, List.reverse_cons]
        rfl
  | cons second others ih =>
      obtain ⟨tokens, spells, reads⟩ := each first List.mem_cons_self
      obtain ⟨more, scans, continues⟩ := ih (fun member listed => labels member (List.mem_cons_of_mem _ listed))
        fun member listed => each member (List.mem_cons_of_mem _ listed)
      refine ⟨tokens ++ .comma :: .string second.name :: .colon :: more, ?_, ?_⟩
      · intro rest
        have ends : ∀ text, Ends (',' :: text) := ends_cons (by decide)
        have whole := (scans_label (labels first List.mem_cons_self) _).append
          ((spells _ (ends _)).append ((scans_of_first? rfl).append (scans rest)))
        simpa [Member.whole] using whole
      · intro members frames rest
        rw [List.append_assoc, reads]
        simp only [List.cons_append]
        rw [finish?, continues, List.reverse_cons, List.append_assoc]
        rfl

theorem read_token {token : Token} (found : ∀ rest, Ends rest → Token.first? (text ++ rest) = some (token, rest))
    (reads : Reads [token] value) : ∃ tokens, Spells text tokens ∧ Reads tokens value :=
  ⟨[token], fun rest ends => scans_of_first? (found rest ends), reads⟩

/-- A text of a value is taken apart into tokens that are read as the value. -/
theorem Written.read (written : Written value text) : ∃ tokens, Spells text tokens ∧ Reads tokens value := by
  induction written with
  | null => exact read_token (fun _ _ => rfl) readValue?.eq_1
  | true => exact read_token (fun _ _ => rfl) fun frames => readValue?.eq_2 frames _
  | false => exact read_token (fun _ _ => rfl) fun frames => readValue?.eq_2 frames _
  | number numeral => exact read_token (fun _ => first?_numeral numeral) fun frames => readValue?.eq_3 frames _
  | string quoted => exact read_token (fun rest _ => first?_quoted quoted rest) fun frames => readValue?.eq_4 frames _
  | emptyArray blanks => exact ⟨_, fun _ _ => scans_empty blanks rfl rfl, readValue?.eq_5⟩
  | emptyObject blanks => exact ⟨_, fun _ _ => scans_empty blanks rfl rfl, readValue?.eq_7⟩
  | @array elements nonempty _ ih =>
      obtain ⟨first, others, rfl⟩ := List.exists_cons_of_ne_nil nonempty
      obtain ⟨tokens, scans, reads⟩ := elements_read ih
      refine ⟨.openBracket :: tokens, ?_, ?_⟩
      · intro rest _
        have opened : Token.first? ('[' :: ([','].intercalate ((first :: others).map Prod.snd) ++ ']' :: rest)) =
          some (.openBracket, _) := rfl
        simpa using (scans_of_first? opened).append (scans rest)
      · intro frames rest
        -- Otherwise the first element could not have been read, even with nothing else open.
        have unclosed : ∀ left, tokens ++ rest = .closeBracket :: left → False := by
          intro left same
          have started := reads [] [] rest
          rw [same, readValue?_closeBracket, finish?] at started
          cases started
        rw [List.cons_append, readValue?.eq_6 _ _ unclosed, reads]
        rfl
  | @object members nonempty labels _ ih =>
      obtain ⟨first, others, rfl⟩ := List.exists_cons_of_ne_nil nonempty
      obtain ⟨tokens, scans, reads⟩ := members_read labels ih
      refine ⟨.openBrace :: .string first.name :: .colon :: tokens, ?_, ?_⟩
      · intro rest _
        have opened : Token.first? ('\x7b' :: ([','].intercalate ((first :: others).map Member.whole) ++
          '\x7d' :: rest)) = some (.openBrace, _) := rfl
        simpa using (scans_of_first? opened).append (scans rest)
      · intro frames rest
        simp only [List.cons_append]
        rw [readValue?, reads]
        rfl
  | padded leading _ trailing ih =>
      obtain ⟨tokens, spells, reads⟩ := ih
      exact ⟨tokens, spells.padded leading trailing, reads⟩

theorem read?_of_written {document : String} (written : Written value document.toList) :
    read? document = some value := by
  obtain ⟨tokens, spells, reads⟩ := written.read
  have scanned : Token.scan? document.toList = some tokens := by
    have whole := spells [] nofun
    rwa [Scans, List.append_nil, Token.scan?, Option.map_some, List.append_nil] at whole
  have found : readValue? [] tokens = some (value, []) := by
    have whole := reads [] []
    rwa [List.append_nil, finish?] at whole
  rw [read?, scanned]
  simp only [Option.bind_eq_bind, Option.bind_some, found]

end LayeredCache.Json
