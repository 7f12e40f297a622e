import StackCompiler.Proofs.Token.LongestMatch

/-!
# Texts written with spaces

In a text that consists of lexemes with a space between any two of them, these
lexemes are found again, and nothing is skipped (`Lexed.lexemes_spaced`,
`Lexed.skipped_spaced`). No lexeme holds a space, and a comment needs two
slashes in a row, so nothing that fits goes on behind the end of a lexeme.
-/

namespace StackCompiler

/-- Whether a lexeme fits into the lexical grammar. -/
def Lexeme.Fits (lexeme : Lexeme) : Prop :=
  Piece.Fits (.lexeme lexeme.kind lexeme.text.toList)

/-- The piece that a lexeme is found as. -/
def Lexeme.piece (lexeme : Lexeme) : Piece := .lexeme lexeme.kind lexeme.text.toList

/-- The text of some lexemes with a space between any two of them. -/
def Lexeme.spaced (lexemes : List Lexeme) : String :=
  " ".intercalate (lexemes.map Lexeme.text)

namespace Piece

/-- A lexeme does not begin like a comment. -/
theorem Fits.ne_slashes {kind : Token.Kind} {text rest : List Char}
    (fits : Fits (.lexeme kind text)) : text ≠ '/' :: '/' :: rest := by
  rintro rfl
  have isComment : first '/' ('/' :: rest) =
      .comment ('/' :: ('/' :: rest).takeWhile (· != '\n')) := rfl
  have isLexeme := fits.eq_first rfl
  rw [isComment] at isLexeme
  contradiction

/-- Nothing that fits goes on behind a lexeme with a space. -/
theorem Fits.length_le_of_space {kind : Token.Kind} {text after : List Char}
    (fits : Fits (.lexeme kind text)) {other : Piece} (otherFits : other.Fits)
    (isInitial : other.chars <+: text ++ ' ' :: after) :
    other.chars.length ≤ text.length := by
  by_contra longer
  have spaceBehind : text ++ [' '] <+: text ++ ' ' :: after := by
    rw [List.prefix_append_right_inj]
    exact ⟨after, rfl⟩
  obtain ⟨more, written⟩ :=
    List.prefix_of_prefix_length_le spaceBehind isInitial (by simp; omega)
  rw [List.append_assoc, List.singleton_append] at written
  cases other with
  | blank char =>
      obtain ⟨head, tail, rfl, _⟩ := fits.exists_head
      simpa [chars] using congrArg List.length written
  | comment line =>
      cases otherFits with
      | comment _ =>
          obtain ⟨head, tail, rfl, _⟩ := fits.exists_head
          obtain ⟨rfl, rest⟩ := List.cons.inj written
          cases tail with
          | nil =>
              obtain ⟨isSlash, _⟩ := List.cons.inj rest
              contradiction
          | cons second tail =>
              obtain ⟨rfl, _⟩ := List.cons.inj rest
              exact fits.ne_slashes rfl
  | lexeme otherKind otherText =>
      have isPart : ' ' ∈ otherText := by
        rw [← show _ = otherText from written]
        simp
      have notBlank := otherFits.formed.not_isBlank ' ' isPart
      contradiction
  | stray char => contradiction

/-- Behind a lexeme, a space is found as a piece of its own. -/
theorem Fits.leads_of_space {kind : Token.Kind} {text : List Char}
    (fits : Fits (.lexeme kind text)) (after : List Char) :
    Leads (text ++ ' ' :: after) (.lexeme kind text) :=
  .longest fits (List.prefix_append _ _) fun _ otherFits isInitial =>
    fits.length_le_of_space otherFits isInitial

theorem Fits.leads {kind : Token.Kind} {text : List Char}
    (fits : Fits (.lexeme kind text)) : Leads text (.lexeme kind text) :=
  .longest fits List.prefix_rfl fun _ _ isInitial => isInitial.length_le

theorem leads_space (after : List Char) : Leads (' ' :: after) (.blank ' ') :=
  leads_iff.2 rfl

end Piece

namespace Lexeme

theorem toList_spaced (lexemes : List Lexeme) :
    (spaced lexemes).toList =
      [' '].intercalate (lexemes.map fun lexeme => lexeme.text.toList) := by
  rw [spaced, String.toList_intercalate, List.map_map]
  rfl

theorem scans_spaced {lexemes : List Lexeme} (fits : ∀ lexeme ∈ lexemes, lexeme.Fits) :
    Scans (spaced lexemes).toList ((lexemes.map piece).intersperse (.blank ' ')) := by
  rw [toList_spaced]
  induction lexemes with
  | nil => exact .nil
  | cons first rest ih =>
      obtain ⟨fitsFirst, fitsRest⟩ := List.forall_mem_cons.1 fits
      have later := ih fitsRest
      cases rest with
      | nil =>
          have leads : first.piece.Leads (first.piece.chars ++ []) := by
            rw [List.append_nil]
            exact fitsFirst.leads
          simpa [List.intercalate, piece, Piece.chars] using Scans.cons leads .nil
      | cons second rest =>
          have space (after : List Char) :
              (Piece.blank ' ').Leads ((Piece.blank ' ').chars ++ after) :=
            Piece.leads_space after
          have leads (after : List Char) :
              first.piece.Leads (first.piece.chars ++ ' ' :: after) :=
            fitsFirst.leads_of_space after
          have all := Scans.cons (leads _) (Scans.cons (space _) later)
          simpa [List.intercalate, piece, Piece.chars] using all

theorem pieces_spaced {lexemes : List Lexeme} (fits : ∀ lexeme ∈ lexemes, lexeme.Fits) :
    pieces (spaced lexemes).toList = (lexemes.map piece).intersperse (.blank ' ') :=
  (scans_iff.1 (scans_spaced fits)).symm

end Lexeme

/-- Keywords are words. -/
theorem Piece.isWord_of_keyword {word : String} (isKeyword : word ∈ Token.keywords) :
    IsWord word.toList := by
  have spelled : Token.keywords.all fun word =>
      word.toList.head?.any Char.isAlpha && word.toList.tail.all Char.isAlphanum := by
    decide
  have isSpelled := List.all_eq_true.1 spelled word isKeyword
  cases written : word.toList with
  | nil =>
      rw [written] at isSpelled
      contradiction
  | cons char rest =>
      rw [written, Bool.and_eq_true_iff] at isSpelled
      exact .intro isSpelled.1 (List.all_eq_true.1 isSpelled.2)

theorem Lexeme.fits_keyword {word : String} (isKeyword : word ∈ Token.keywords) :
    (keyword word).Fits := by
  refine .keyword (Piece.isWord_of_keyword isKeyword) ?_
  rwa [String.ofList_toList]

/-- The lexemes among the pieces of a source fit. -/
theorem Lexeme.fits_of_mem_pieces {source : List Char} {lexeme : Lexeme}
    (isPiece : lexeme ∈ (pieces source).filterMap Piece.lexeme?) : lexeme.Fits := by
  rcases List.mem_filterMap.1 isPiece with ⟨piece, isPiece, isLexeme⟩
  rcases exists_first_of_mem_pieces isPiece with ⟨char, rest, rfl⟩
  rcases Piece.fits_first_or_stray char rest with fits | ⟨isStray, _⟩
  · cases first : Piece.first char rest with
    | lexeme kind text =>
        rw [first] at fits isLexeme
        rw [← Option.some.inj isLexeme, Fits, String.toList_ofList]
        exact fits
    | _ =>
        rw [first] at isLexeme
        contradiction
  · rw [isStray] at isLexeme
    contradiction

namespace Lexed

/-- The tokens of a source fit, but for the one at the end. -/
theorem fits_of_mem_survey {source : List Char} :
    ∀ token ∈ (survey source).tokens.reverse, token.lexeme.Fits := by
  intro token found
  apply Lexeme.fits_of_mem_pieces
  rw [← map_lexeme_survey]
  exact List.mem_map_of_mem found

/-- Lexemes with spaces between them are found again. -/
theorem lexemes_spaced {lexemes : List Lexeme}
    (fits : ∀ lexeme ∈ lexemes, lexeme.Fits) :
    (ofSource (Lexeme.spaced lexemes).toList).lexemes = lexemes := by
  rw [lexemes_ofSource, Lexeme.pieces_spaced fits]
  clear fits
  induction lexemes with
  | nil => rfl
  | cons first rest ih =>
      cases rest with
      | nil => simp [Lexeme.piece, Piece.lexeme?]
      | cons second rest =>
          rw [List.map_cons, List.map_cons, List.intersperse_cons_cons, ← List.map_cons,
            List.filterMap_cons, List.filterMap_cons, ih]
          simp [Lexeme.piece, Piece.lexeme?]

theorem skipped_spaced {lexemes : List Lexeme}
    (fits : ∀ lexeme ∈ lexemes, lexeme.Fits) :
    (ofSource (Lexeme.spaced lexemes).toList).skipped = [] := by
  have noneSkipped (before : List Char) :
      (Placed.all before
        ((lexemes.map Lexeme.piece).intersperse (.blank ' '))).filterMap
          Placed.skipped? = [] := by
    clear fits
    induction lexemes generalizing before with
    | nil => rfl
    | cons first rest ih =>
        cases rest with
        | nil => rfl
        | cons second rest => exact ih _
  have skipped := (records_survey (Lexeme.spaced lexemes).toList).skipped
  rw [Lexeme.pieces_spaced fits, noneSkipped] at skipped
  exact skipped

end Lexed

end StackCompiler
