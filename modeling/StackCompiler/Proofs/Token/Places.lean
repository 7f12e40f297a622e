import StackCompiler.Proofs.Text.Slices
import StackCompiler.Proofs.Token.Lexemes

/-!
# Where the pieces of a source stand

The tokens of a source are those of its pieces that are lexemes, and what is
skipped are those that are stray characters, each with the byte offset and the
line at which the text before it ends (`Lexed.records_survey`).
-/

namespace StackCompiler

namespace Piece

/-- Whether a piece is a line break or has none. -/
def CountsLines (piece : Piece) : Prop :=
  piece.chars.count '\n' = if piece = .blank '\n' then 1 else 0

theorem Fits.countsLines {piece : Piece} (fits : piece.Fits) : piece.CountsLines := by
  cases piece with
  | blank char => simp [CountsLines, chars, List.count_singleton]
  | comment text =>
      cases fits with
      | comment inLine => simpa [CountsLines, chars, List.count_eq_zero] using inLine
  | lexeme kind text =>
      rw [CountsLines, if_neg (by simp), List.count_eq_zero]
      intro found
      have notBlank := fits.formed.not_isBlank '\n' found
      contradiction
  | stray char => contradiction

/-- A line ends with a piece of its own, and no other piece holds a line break. -/
theorem countsLines_first (char : Char) (rest : List Char) :
    (first char rest).CountsLines := by
  rcases fits_first_or_stray char rest with fits | ⟨piece, beginsNothing⟩
  · exact fits.countsLines
  · rw [piece, CountsLines, chars, if_neg (by simp), List.count_eq_zero,
      List.mem_singleton]
    rintro rfl
    contradiction

/-- The character that a piece is, if it is a stray one. -/
def stray? : Piece → Option Char
  | stray char => some char
  | _ => none

end Piece

/-- A piece with the text that stands before it. -/
structure Placed where
  before : List Char
  piece : Piece

namespace Placed

/-- The places of pieces that follow each other, when `before` stands before
the first of them. -/
def all (before : List Char) : List Piece → List Placed
  | [] => []
  | piece :: rest => ⟨before, piece⟩ :: all (before ++ piece.chars) rest

/-- The byte offset at which a piece begins. -/
def loc (placed : Placed) : Nat := Text.byteLength placed.before

/-- The line in which a piece begins, counted from one. -/
def line (placed : Placed) : Nat := placed.before.count '\n' + 1

/-- The token that a piece is, if it is a lexeme. -/
def token? (placed : Placed) : Option Token :=
  match placed.piece with
  | .lexeme kind text => some ⟨kind, String.ofList text, placed.loc, placed.line⟩
  | _ => none

/-- The skipped character that a piece is, if it is a stray one. -/
def skipped? (placed : Placed) : Option SkippedChar :=
  match placed.piece with
  | .stray char => some ⟨char, placed.line, placed.loc⟩
  | _ => none

theorem text_of_token? {placed : Placed} {token : Token}
    (isToken : placed.token? = some token) :
    token.text.toList = placed.piece.chars := by
  unfold token? at isToken
  split at isToken
  next kind text isLexeme =>
    rw [← Option.some.inj isToken, isLexeme, String.toList_ofList]
    rfl
  next => contradiction

theorem loc_of_token? {placed : Placed} {token : Token}
    (isToken : placed.token? = some token) : token.loc = placed.loc := by
  unfold token? at isToken
  split at isToken
  next => rw [← Option.some.inj isToken]
  next => contradiction

theorem map_char_skipped (before : List Char) (found : List Piece) :
    ((all before found).filterMap skipped?).map SkippedChar.char =
      found.filterMap Piece.stray? := by
  induction found generalizing before with
  | nil => rfl
  | cons piece found ih =>
      rw [all, List.filterMap_cons, List.filterMap_cons]
      cases piece with
      | stray char => exact congrArg (char :: ·) (ih _)
      | _ => exact ih _

theorem all_concat (before : List Char) (found : List Piece) (piece : Piece) :
    all before (found ++ [piece]) =
      all before found ++ [⟨before ++ found.flatMap Piece.chars, piece⟩] := by
  induction found generalizing before with
  | nil =>
      rw [List.flatMap_nil, List.append_nil]
      rfl
  | cons first found ih =>
      rw [List.cons_append, all, all, ih, List.flatMap_cons, List.append_assoc]
      rfl

theorem exists_text_of_mem_all {before : List Char} {found : List Piece}
    {placed : Placed} (isPlaced : placed ∈ all before found) :
    ∃ after, before ++ found.flatMap Piece.chars =
      placed.before ++ (placed.piece.chars ++ after) := by
  induction found generalizing before with
  | nil => contradiction
  | cons piece found ih =>
      rw [List.flatMap_cons]
      rcases List.mem_cons.1 isPlaced with rfl | later
      · exact ⟨found.flatMap Piece.chars, rfl⟩
      · rw [← List.append_assoc]
        exact ih later

end Placed

namespace Lexed

namespace Progress

theorem line_step (progress : Progress) (piece : Piece) :
    (progress.step piece).line =
      progress.line + if piece = .blank '\n' then 1 else 0 := by
  cases piece <;> simp only [step, pass] <;> split <;> rfl

theorem loc_step (progress : Progress) (piece : Piece) :
    (progress.step piece).loc = progress.loc + Text.byteLength piece.chars := by
  cases piece <;> rfl

/-- Whether progress is what the pieces found so far amount to. -/
structure Records (found : List Piece) (progress : Progress) : Prop where
  loc : progress.loc = Text.byteLength (found.flatMap Piece.chars)
  line : progress.line = (found.flatMap Piece.chars).count '\n' + 1
  tokens : progress.tokens.reverse = (Placed.all [] found).filterMap Placed.token?
  skipped : progress.skipped.reverse = (Placed.all [] found).filterMap Placed.skipped?

theorem records_start : Records [] start := ⟨rfl, rfl, rfl, rfl⟩

variable {found : List Piece} {progress : Progress}

theorem Records.step (records : Records found progress) {piece : Piece}
    (counts : piece.CountsLines) :
    Records (found ++ [piece]) (progress.step piece) where
  loc := by
    rw [loc_step, records.loc, List.flatMap_append, Text.byteLength_append,
      List.flatMap_singleton]
  line := by
    rw [line_step, records.line, List.flatMap_append, List.count_append,
      List.flatMap_singleton, counts, Nat.add_right_comm]
  tokens := by
    rw [Placed.all_concat, List.filterMap_append, ← records.tokens]
    cases piece with
    | lexeme kind text =>
        simp [Progress.step, pass, Placed.token?, Placed.loc, Placed.line, records.loc,
          records.line]
    | _ => simp [Progress.step, pass, Placed.token?]
  skipped := by
    rw [Placed.all_concat, List.filterMap_append, ← records.skipped]
    cases piece with
    | stray char =>
        simp [Progress.step, pass, Placed.skipped?, Placed.loc, Placed.line,
          records.loc, records.line]
    | _ => simp [Progress.step, pass, Placed.skipped?]

theorem Records.foldl (records : Records found progress) {more : List Piece}
    (counts : ∀ piece ∈ more, piece.CountsLines) :
    Records (found ++ more) (more.foldl Progress.step progress) := by
  induction more generalizing found progress with
  | nil =>
      rw [List.append_nil]
      exact records
  | cons piece more ih =>
      rw [List.forall_mem_cons] at counts
      rw [List.append_cons]
      exact ih (records.step counts.1) counts.2

end Progress

theorem records_survey (source : List Char) :
    (survey source).Records (pieces source) := by
  apply Progress.records_start.foldl
  intro piece isPiece
  rcases exists_first_of_mem_pieces isPiece with ⟨char, rest, rfl⟩
  exact Piece.countsLines_first char rest

/-- The characters that are skipped are the stray ones. -/
theorem map_char_skipped_ofSource (source : List Char) :
    (ofSource source).skipped.map SkippedChar.char =
      (pieces source).filterMap Piece.stray? := by
  rw [ofSource, Progress.finish, (records_survey source).skipped,
    Placed.map_char_skipped]

theorem line_survey (source : List Char) :
    (survey source).line = source.count '\n' + 1 := by
  rw [(records_survey source).line, flatMap_chars_pieces]

theorem loc_survey (source : List Char) :
    (survey source).loc = Text.byteLength source := by
  rw [(records_survey source).loc, flatMap_chars_pieces]

/-- A token stands where it says that it does. -/
theorem slice?_of_mem_tokens {source : List Char} {token : Token}
    (found : token ∈ (ofSource source).tokens) :
    Text.slice? source token.loc token.len = some token.text.toList := by
  rw [tokens_ofSource, List.mem_append, List.mem_singleton,
    (records_survey source).tokens] at found
  rcases found with isLexeme | rfl
  · rcases List.mem_filterMap.1 isLexeme with ⟨placed, isPlaced, isToken⟩
    rcases Placed.exists_text_of_mem_all isPlaced with ⟨after, split⟩
    rw [flatMap_chars_pieces, List.nil_append] at split
    rw [Token.len, ← Text.byteLength_toList, Placed.text_of_token? isToken,
      Placed.loc_of_token? isToken, split]
    exact Text.slice?_append _ _ _
  · have atEnd := Text.slice?_append source [] []
    rw [List.append_nil, List.append_nil] at atEnd
    rw [loc_survey]
    exact atEnd

end Lexed

end StackCompiler
