import LayeredCache.Proofs.Json.Grammar

/-! Strings are read as they are meant. Each piece is taken from the front of a text, however it is spelled, and pieces
stand for a text exactly if no unit of a pair is left alone. -/

set_option autoImplicit false

namespace LayeredCache.Json

variable {piece : Piece} {pieces : List Piece} {part text : List Char} {parts : List (List Char)}

theorem hexValue?_of_hexDigit {value : Nat} {character : Char} (digit : HexDigit value character) :
    hexValue? character = some value := by
  obtain ⟨bound, spelled⟩ := digit
  have each : ∀ value : Fin 16, hexValue? value.val.digitChar = some value.val ∧
      hexValue? value.val.digitChar.toUpper = some value.val := by decide
  rcases spelled with rfl | rfl
  · exact (each ⟨value, bound⟩).1
  · exact (each ⟨value, bound⟩).2

theorem stringPieces?_append (written : PieceText piece part) (rest : List Char) :
    stringPieces? (part ++ rest) = (stringPieces? rest).map fun found => (piece :: found.1, found.2) := by
  rw [Option.map_eq_bind]
  cases written with
  | plain visible unquoted unescaped =>
      have readable := not_or.mpr ⟨Nat.not_lt.mpr visible, unescaped⟩
      rw [List.singleton_append, stringPieces?.eq_5 _ _ unquoted (fun _ _ _ _ _ same => absurd same unescaped)
        (fun _ _ same => absurd same unescaped), if_neg readable]
      rfl
  | @escaped escape character listed =>
      have known : shortEscape? escape = some character ∧ escape ≠ 'u' := by
        simp only [List.mem_cons, Prod.mk.injEq, List.not_mem_nil, or_false] at listed
        rcases listed with ⟨rfl, rfl⟩ | ⟨rfl, rfl⟩ | ⟨rfl, rfl⟩ | ⟨rfl, rfl⟩ | ⟨rfl, rfl⟩ | ⟨rfl, rfl⟩ | ⟨rfl, rfl⟩ |
          ⟨rfl, rfl⟩ <;> decide
      rw [List.cons_append, List.singleton_append,
        stringPieces?.eq_4 _ _ fun _ _ _ _ _ same => absurd same known.2, known.1]
      rfl
  | @unit first second third fourth a b c d high upper lower low =>
      have value : ((first * 16 + second) * 16 + third) * 16 + fourth =
          first * 0x1000 + second * 0x100 + third * 0x10 + fourth := by omega
      simp only [List.cons_append, List.nil_append, stringPieces?, hexValue?_of_hexDigit high,
        hexValue?_of_hexDigit upper, hexValue?_of_hexDigit lower, hexValue?_of_hexDigit low, Option.bind_eq_bind,
        Option.bind_some, value]
      rfl

theorem stringPieces?_flatten (written : List.Forall₂ PieceText pieces parts) (rest : List Char) :
    stringPieces? (parts.flatten ++ '"' :: rest) = some (pieces, rest) := by
  induction written with
  | nil => rfl
  | cons first others ih =>
      rw [List.flatten_cons, List.append_assoc, stringPieces?_append first, ih]
      rfl

/-- A unit that is spelled out has sixteen bits. -/
theorem unit_lt {code : Nat} (written : PieceText (.unit code) part) : code < 0x10000 := by
  cases written with
  | unit high upper lower low =>
      have := high.1
      have := upper.1
      have := lower.1
      have := low.1
      omega

theorem isLeading_iff (code : Nat) : isLeading code = true ↔ 0xd800 ≤ code ∧ code < 0xdc00 := by
  rw [isLeading, Bool.and_eq_true, decide_eq_true_iff, decide_eq_true_iff]

theorem isTrailing_iff (code : Nat) : isTrailing code = true ↔ 0xdc00 ≤ code ∧ code < 0xe000 := by
  rw [isTrailing, Bool.and_eq_true, decide_eq_true_iff, decide_eq_true_iff]

theorem toNat_bounds (character : Char) :
    character.toNat < 0xd800 ∨ 0xdfff < character.toNat ∧ character.toNat < 0x110000 :=
  character.valid

theorem toNat_ofNat {code : Nat} (valid : code < 0xd800 ∨ 0xdfff < code ∧ code < 0x110000) :
    (Char.ofNat code).toNat = code := by
  unfold Char.ofNat
  rw [dif_pos valid]
  rfl

theorem piecesText?_of_denotes (denotes : Denotes pieces text) : piecesText? pieces = some text := by
  induction denotes with
  | nil => rfl
  | character denotes ih => rw [piecesText?, ih, Option.map_some]
  | @unit character pieces text denotes ih =>
      have bounds := toNat_bounds character
      have unpaired : ¬isLeading character.toNat ∧ ¬isTrailing character.toNat := by
        rw [isLeading_iff, isTrailing_iff]
        omega
      rw [piecesText?.eq_def]
      simp only [if_neg unpaired.1, if_neg unpaired.2, ih, Option.map_some, Char.ofNat_toNat]
  | @pair character pieces text wide denotes ih =>
      have bounds := toNat_bounds character
      have leads : isLeading (0xd800 + (character.toNat - 0x10000) / 0x400) := by
        rw [isLeading_iff]
        omega
      have trails : isTrailing (0xdc00 + (character.toNat - 0x10000) % 0x400) := by
        rw [isTrailing_iff]
        omega
      have whole : 0x10000 + (0xd800 + (character.toNat - 0x10000) / 0x400 - 0xd800) * 0x400 +
          (0xdc00 + (character.toNat - 0x10000) % 0x400 - 0xdc00) = character.toNat := by omega
      rw [piecesText?, if_pos leads]
      simp only [if_pos trails, ih, Option.map_some, whole, Char.ofNat_toNat]

theorem denotes_of_piecesText? (narrow : ∀ code, .unit code ∈ pieces → code < 0x10000)
    (found : piecesText? pieces = some text) : Denotes pieces text := by
  fun_induction piecesText? pieces generalizing text with
  | case1 =>
      cases found
      exact .nil
  | case2 character rest ih =>
      obtain ⟨others, read, rfl⟩ := Option.map_eq_some_iff.mp found
      exact .character (ih (fun code listed => narrow code (List.mem_cons_of_mem _ listed)) read)
  | case3 code leads next rest trails ih =>
      obtain ⟨others, read, rfl⟩ := Option.map_eq_some_iff.mp found
      rw [isLeading_iff] at leads
      rw [isTrailing_iff] at trails
      let character := Char.ofNat (0x10000 + (code - 0xd800) * 0x400 + (next - 0xdc00))
      have number : character.toNat = 0x10000 + (code - 0xd800) * 0x400 + (next - 0xdc00) := toNat_ofNat (by omega)
      have first : 0xd800 + (character.toNat - 0x10000) / 0x400 = code := by omega
      have second : 0xdc00 + (character.toNat - 0x10000) % 0x400 = next := by omega
      have denotes := @Denotes.pair character _ _ (by omega)
        (ih (fun code listed => narrow code (List.mem_cons_of_mem _ (List.mem_cons_of_mem _ listed))) read)
      rwa [first, second] at denotes
  | case4 => cases found
  | case5 => cases found
  | case6 => cases found
  | case7 code rest unled untrailed ih =>
      obtain ⟨others, read, rfl⟩ := Option.map_eq_some_iff.mp found
      rw [isLeading_iff] at unled
      rw [isTrailing_iff] at untrailed
      have bound := narrow code List.mem_cons_self
      have number : (Char.ofNat code).toNat = code := toNat_ofNat (by omega)
      have denotes := @Denotes.unit (Char.ofNat code) _ _
        (ih (fun code listed => narrow code (List.mem_cons_of_mem _ listed)) read)
      rwa [number] at denotes

theorem piecesText?_eq_some_iff (narrow : ∀ code, .unit code ∈ pieces → code < 0x10000) :
    piecesText? pieces = some text ↔ Denotes pieces text :=
  ⟨denotes_of_piecesText? narrow, piecesText?_of_denotes⟩

/-- Every unit among pieces that are spelled out has sixteen bits. -/
theorem narrow_of_written (written : List.Forall₂ PieceText pieces parts) :
    ∀ code, .unit code ∈ pieces → code < 0x10000 := by
  induction written with
  | nil => exact fun _ => nofun
  | cons first others ih =>
      intro code listed
      rcases List.mem_cons.mp listed with rfl | later
      · exact unit_lt first
      · exact ih code later

/-- Pieces that are spelled out are a string, of the text that they stand for. -/
theorem quoted_of_written (written : List.Forall₂ PieceText pieces parts) :
    Quoted (piecesText? pieces) ('"' :: (parts.flatten ++ ['"'])) :=
  .mk written fun _ => piecesText?_eq_some_iff (narrow_of_written written)

/-- A text between quotes is a string of that text, if nothing in it has to be spelled out. -/
theorem quoted_of_plain (plain : ∀ character ∈ text, 0x20 ≤ character.toNat ∧ character ≠ '"' ∧ character ≠ '\\') :
    Quoted (some text) ('"' :: (text ++ ['"'])) := by
  have written : List.Forall₂ PieceText (text.map .character) (text.map ([·])) := by
    rw [List.forall₂_map_left_iff, List.forall₂_map_right_iff, List.forall₂_same]
    intro character listed
    obtain ⟨visible, unquoted, unescaped⟩ := plain character listed
    exact .plain visible unquoted unescaped
  have meant : ∀ text : List Char, piecesText? (text.map .character) = some text := by
    intro text
    induction text with
    | nil => rfl
    | cons character text ih => rw [List.map_cons, piecesText?, ih, Option.map_some]
  have string := quoted_of_written written
  rwa [meant, ← List.flatMap_def, List.flatMap_singleton'] at string

/-- A string is read as the text that it stands for. -/
theorem stringPieces?_quoted {text : Option (List Char)} {quoted : List Char} (written : Quoted text quoted)
    (rest : List Char) : ∃ inner, quoted = '"' :: inner ∧
      (stringPieces? (inner ++ rest)).map (fun found => (piecesText? found.1, found.2)) = some (text, rest) := by
  obtain ⟨written, meaning⟩ := written
  refine ⟨_, rfl, ?_⟩
  rw [List.append_assoc, List.singleton_append, stringPieces?_flatten written rest, Option.map_some]
  refine congrArg (fun text => some (text, rest)) (Option.ext fun meant => ?_)
  rw [piecesText?_eq_some_iff (narrow_of_written written), ← meaning]

end LayeredCache.Json
