import StackCompiler.Proofs.Grammar.Spelling
import StackCompiler.Proofs.Token.Patterns
import StackCompiler.Token.Lexed

/-!
# The lexemes of a source text

The tokens of a source spell what stands in its pieces, and a token that closes
the sequence stands at the end and nowhere else.
-/

namespace StackCompiler

/-- What holds of a text if it holds of what follows the first piece,
holds of every text. -/
@[elab_as_elim]
theorem Piece.inductionOn {motive : List Char → Prop} (text : List Char)
    (nil : motive [])
    (cons : ∀ char rest, motive ((char :: rest).drop (first char rest).chars.length) →
      motive (char :: rest)) : motive text := by
  induction length : text.length using Nat.strongRecOn generalizing text with
  | ind bound ih =>
      cases text with
      | nil => exact nil
      | cons char rest =>
          refine cons char rest (ih _ ?_ _ rfl)
          have positive := first_length_pos char rest
          simp only [List.length_drop, List.length_cons] at *
          omega

theorem exists_first_of_mem_pieces {source : List Char} {piece : Piece}
    (found : piece ∈ pieces source) : ∃ char rest, piece = .first char rest := by
  induction source using Piece.inductionOn with
  | nil => simp at found
  | cons char rest ih =>
      rw [pieces_cons] at found
      rcases List.mem_cons.1 found with rfl | later
      · exact ⟨char, rest, rfl⟩
      · exact ih later

namespace Piece

/-- The lexeme that a piece is, if it is one. -/
def lexeme? : Piece → Option Lexeme
  | lexeme kind text => some ⟨kind, String.ofList text⟩
  | _ => none

/-- How the text of a lexeme is formed, by its kind. -/
inductive Formed : Token.Kind → List Char → Prop where
  | keyword {text : List Char} : String.ofList text ∈ Token.keywords →
      Formed .keyword text
  | identifier {char : Char} {rest : List Char} : char.isAlpha →
      (∀ other ∈ rest, other.isAlphanum) →
      String.ofList (char :: rest) ∉ Token.keywords → Formed .identifier (char :: rest)
  | integer {text : List Char} : text ≠ [] → (∀ char ∈ text, char.isDigit) →
      Formed .integer text
  | double {whole fraction power : List Char} : whole ≠ [] →
      (∀ char ∈ whole, char.isDigit) →
      fraction ≠ [] → (∀ char ∈ fraction, char.isDigit) →
      (∀ char ∈ power, char.isDigit ∨ char ∈ ['e', 'E', '+', '-']) →
      Formed .double (whole ++ '.' :: (fraction ++ power))
  | mark {char : Char} : char ∈ marks → Formed .punctuator [char]
  | comparison {char : Char} : char ∈ comparisonStarts → Formed .punctuator [char, '=']

theorem IsExponent.mem {power : List Char} (isPower : IsExponent power) :
    ∀ char ∈ power, char.isDigit ∨ char ∈ ['e', 'E', '+', '-'] := by
  cases isPower with
  | none => exact fun _ found => absurd found List.not_mem_nil
  | @power mark sign numeral isMark isSign isNumeral =>
      have signs :
          ∀ sign ∈ [[], ['+'], ['-']], ∀ char ∈ sign, char ∈ ['e', 'E', '+', '-'] := by
        simp
      have marks : ∀ mark ∈ ['e', 'E'], mark ∈ ['e', 'E', '+', '-'] := by simp
      intro char found
      rcases List.mem_cons.1 found with rfl | found
      · exact .inr (marks char isMark)
      rcases List.mem_append.1 found with inSign | inNumeral
      · exact .inr (signs sign isSign char inSign)
      · exact .inl (isNumeral.isDigit char inNumeral)

theorem Fits.formed {kind : Token.Kind} {text : List Char}
    (fits : Fits (.lexeme kind text)) : Formed kind text := by
  cases fits with
  | keyword _ isKeyword => exact .keyword isKeyword
  | identifier isWord noKeyword =>
      cases isWord with
      | intro isAlpha allAlphanum => exact .identifier isAlpha allAlphanum noKeyword
  | integer isNumeral => exact .integer isNumeral.ne_nil isNumeral.isDigit
  | double isWhole isDecimals isPower =>
      exact .double isWhole.ne_nil isWhole.isDigit isDecimals.ne_nil
        isDecimals.isDigit isPower.mem
  | comparison isStart => exact .comparison isStart
  | mark isMark => exact .mark isMark

/-- Lexemes are formed as their kind demands. -/
theorem formed_of_first {char : Char} {rest text : List Char} {kind : Token.Kind}
    (isFirst : first char rest = .lexeme kind text) : Formed kind text := by
  rcases fits_first_or_stray char rest with fits | ⟨isStray, _⟩
  · rw [isFirst] at fits
    exact fits.formed
  · rw [isFirst] at isStray
    contradiction

theorem formed_of_mem_lexemes {source : List Char} {found : Lexeme}
    (isPiece : found ∈ (pieces source).filterMap lexeme?) :
    Formed found.kind found.text.toList := by
  obtain ⟨piece, isPiece, isLexeme⟩ := List.mem_filterMap.1 isPiece
  obtain ⟨char, rest, rfl⟩ := exists_first_of_mem_pieces isPiece
  cases piece : first char rest with
  | lexeme kind text =>
      rw [piece, lexeme?, Option.some.injEq] at isLexeme
      rw [← isLexeme, String.toList_ofList]
      exact formed_of_first piece
  | _ =>
      rw [piece] at isLexeme
      contradiction

theorem Formed.kind_ne_endOfInput {kind : Token.Kind} {text : List Char}
    (formed : Formed kind text) : kind ≠ .endOfInput := by
  cases formed <;> decide

/-! ### White space -/

theorem isAlphanum_of_keyword {text : List Char}
    (isKeyword : String.ofList text ∈ Token.keywords) :
    ∀ char ∈ text, char.isAlphanum := by
  have spelled : ∀ word ∈ Token.keywords, ∀ char ∈ word.toList, char.isAlphanum := by
    simp [Token.keywords]
  simpa using spelled (String.ofList text) isKeyword

/-- No lexeme holds white space. -/
theorem Formed.not_isBlank {kind : Token.Kind} {text : List Char}
    (formed : Formed kind text) : ∀ char ∈ text, isBlank char = false := by
  have digit {char : Char} (isDigit : char.isDigit) : isBlank char = false :=
    not_isBlank_of_isAlphanum (by simp [Char.isAlphanum, isDigit])
  cases formed with
  | keyword isKeyword =>
      exact fun char found => not_isBlank_of_isAlphanum
        (isAlphanum_of_keyword isKeyword char found)
  | identifier isAlpha alphanum _ =>
      refine List.forall_mem_cons.2
        ⟨not_isBlank_of_isAlphanum (by simp [Char.isAlphanum, isAlpha]), ?_⟩
      exact fun char found => not_isBlank_of_isAlphanum (alphanum char found)
  | integer _ digits => exact fun char found => digit (digits char found)
  | double _ digits _ fractionDigits powerChars =>
      have isSign : ∀ char ∈ ['e', 'E', '+', '-'], isBlank char = false := by
        simp [isBlank]
      simp only [List.forall_mem_append, List.forall_mem_cons]
      refine ⟨fun char found => digit (digits char found), by decide,
        fun char found => digit (fractionDigits char found), fun char found => ?_⟩
      exact (powerChars char found).elim digit (isSign char)
  | mark isMark =>
      have isVisible : ∀ char ∈ marks, isBlank char = false := by simp [marks, isBlank]
      exact List.forall_mem_singleton.2 (isVisible _ isMark)
  | comparison isStart =>
      have isVisible : ∀ char ∈ comparisonStarts, isBlank char = false := by
        simp [comparisonStarts, isBlank]
      exact List.forall_mem_cons.2
        ⟨isVisible _ isStart, List.forall_mem_singleton.2 rfl⟩

end Piece

namespace Lexed

namespace Progress

theorem map_lexeme_tokens_step (progress : Progress) (piece : Piece) :
    (progress.step piece).tokens.reverse.map Token.lexeme =
      progress.tokens.reverse.map Token.lexeme ++ piece.lexeme?.toList := by
  cases piece with
  | lexeme kind text => simp [step, pass, Piece.lexeme?, Token.lexeme]
  | _ => simp [step, pass, Piece.lexeme?]

theorem map_lexeme_tokens_foldl (progress : Progress) (pieces : List Piece) :
    (pieces.foldl step progress).tokens.reverse.map Token.lexeme =
      progress.tokens.reverse.map Token.lexeme ++ pieces.filterMap Piece.lexeme? := by
  induction pieces generalizing progress with
  | nil => simp
  | cons piece rest ih =>
      rw [List.foldl_cons, ih, map_lexeme_tokens_step, List.append_assoc,
        List.filterMap_cons]
      cases piece.lexeme? <;> rfl

end Progress

/-- What the tokens before the end spell. -/
def lexemes (lexed : Lexed) : List Lexeme :=
  (lexed.tokens.takeWhile fun token => !token.isEnd).map Token.lexeme

theorem map_lexeme_survey (source : List Char) :
    (survey source).tokens.reverse.map Token.lexeme =
      (pieces source).filterMap Piece.lexeme? := by
  rw [survey, Progress.map_lexeme_tokens_foldl]
  rfl

theorem not_isEnd_of_mem_survey {source : List Char} {token : Token}
    (found : token ∈ (survey source).tokens.reverse) : token.isEnd = false := by
  have isPiece : token.lexeme ∈ (pieces source).filterMap Piece.lexeme? := by
    rw [← map_lexeme_survey]
    exact List.mem_map_of_mem found
  have written := (Piece.formed_of_mem_lexemes isPiece).kind_ne_endOfInput
  simpa [Token.isEnd, Token.lexeme] using written

theorem tokens_ofSource (source : List Char) :
    (ofSource source).tokens = (survey source).tokens.reverse ++
      [Token.endAt (survey source).loc (survey source).line] := by
  simp [ofSource, Progress.finish]

/-- The lexemes of a source are those among its pieces. -/
theorem lexemes_ofSource (source : List Char) :
    (ofSource source).lexemes = (pieces source).filterMap Piece.lexeme? := by
  rw [lexemes, tokens_ofSource, List.takeWhile_append_of_pos, ← map_lexeme_survey]
  · simp [Token.isEnd, Token.endAt]
  · intro token found
    simp [not_isEnd_of_mem_survey found]

/-! ### Strict mode -/

theorem foldl_of_foldlM {source : List Char} {progress last : Progress}
    {pieces : List Piece}
    (accepted : pieces.foldlM (Progress.stepStrictly source) progress = .ok last) :
    pieces.foldl Progress.step progress = last := by
  induction pieces generalizing progress with
  | nil => exact Except.ok.inj accepted
  | cons piece rest ih =>
      rw [List.foldlM_cons] at accepted
      cases piece with
      | stray char => contradiction
      | _ => exact ih accepted

theorem outcome_read (source : List Char) (strict : Bool) :
    (read source strict).outcome =
    (if strict then surveyStrictly source else .ok (survey source)).map
        Progress.finish := by
  rw [read, Traced.outcome_bind]
  change (if strict then surveyStrictly source else .ok (survey source)) >>= _ = _
  cases (if strict then surveyStrictly source else .ok (survey source)) with
  | error diagnostic => rfl
  | ok progress => rfl

/-- Whatever is found in either mode is found in the whole source. -/
theorem eq_survey {source : List Char} {strict : Bool} {progress : Progress}
    (found : (if strict then surveyStrictly source else .ok (survey source)) =
      .ok progress) :
    progress = survey source := by
  cases strict with
  | false => exact (Except.ok.inj found).symm
  | true => exact (foldl_of_foldlM found).symm

/-- What is read from a source in either mode is what the source consists of. -/
theorem eq_ofSource_of_read {source : List Char} {strict : Bool} {lexed : Lexed}
    (reads : (read source strict).outcome = .ok lexed) : lexed = ofSource source := by
  rw [outcome_read] at reads
  cases found : (if strict then surveyStrictly source else .ok (survey source)) with
  | error diagnostic =>
      rw [found] at reads
      contradiction
  | ok progress =>
      rw [found] at reads
      rw [ofSource, ← eq_survey found]
      exact (Except.ok.inj reads).symm

end Lexed

end StackCompiler
