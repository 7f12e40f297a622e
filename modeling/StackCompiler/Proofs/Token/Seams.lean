import StackCompiler.Proofs.Token.Places

/-!
# Texts joined by a line break

No piece of a text reaches beyond the end of a line. So the pieces of two texts
with a line break between them are the pieces of the one and then those of the
other (`pieces_append_lineBreak`), and what is found in the second text, be it a
token or something to be skipped, is found as many lines and bytes further on as
the first one takes up (`Lexed.read_append_lineBreak`).
-/

namespace StackCompiler

/-- Whatever follows it, nothing goes on behind a character that does not belong. -/
theorem takeWhile_append_of_stop {belongs : Char → Bool} {stop : Char}
    (stops : belongs stop = false) (text after : List Char) :
    (text ++ stop :: after).takeWhile belongs = text.takeWhile belongs := by
  induction text with
  | nil =>
      rw [List.nil_append, List.takeWhile_cons, stops, List.takeWhile_nil]
      rfl
  | cons char rest ih =>
      rw [List.cons_append, List.takeWhile_cons, List.takeWhile_cons, ih]

namespace Piece

variable (text after : List Char)

theorem digits_append_lineBreak : digits (text ++ '\n' :: after) = digits text :=
  takeWhile_append_of_stop rfl text after

theorem sign_append_lineBreak : sign (text ++ '\n' :: after) = sign text := by
  cases text with
  | nil => rfl
  | cons char rest =>
      rw [List.cons_append]
      unfold sign
      split <;> split <;> simp_all

/-- Behind a match, the rest of a text stands before the line break as well. -/
theorem drop_append_of_isPrefix {initial text : List Char}
    (isInitial : initial <+: text) :
    (text ++ '\n' :: after).drop initial.length =
      text.drop initial.length ++ '\n' :: after :=
  List.drop_append_of_le_length isInitial.length_le

theorem exponent_append_lineBreak :
    exponent (text ++ '\n' :: after) = exponent text := by
  cases text with
  | nil => rfl
  | cons mark rest =>
      rw [List.cons_append, exponent, exponent, sign_append_lineBreak,
        drop_append_of_isPrefix _ (isPrefix_sign rest), digits_append_lineBreak]

theorem fraction_append_lineBreak :
    fraction (text ++ '\n' :: after) = fraction text := by
  cases text with
  | nil => rfl
  | cons point rest =>
      by_cases isPoint : point = '.'
      · rw [isPoint, List.cons_append, fraction, fraction, digits_append_lineBreak,
          drop_append_of_isPrefix _ (isPrefix_digits rest), exponent_append_lineBreak]
      · simp [fraction, isPoint]

theorem head?_append_lineBreak {char : Char} (inLine : char ≠ '\n') :
    ((text ++ '\n' :: after).head? == some char) = (text.head? == some char) := by
  cases text with
  | nil => simpa using inLine.symm
  | cons first rest => rfl

/-- The first piece of a text ends before the line does. -/
theorem first_append_lineBreak (char : Char) :
    first char (text ++ '\n' :: after) = first char text := by
  rw [first, head?_append_lineBreak text after (by decide), head?_append_lineBreak text
      after (by decide), takeWhile_append_of_stop rfl, takeWhile_append_of_stop rfl,
    digits_append_lineBreak, drop_append_of_isPrefix _ (isPrefix_digits text),
    fraction_append_lineBreak, ← first]

end Piece

/-- The pieces of texts with a line break between them are those of the texts. -/
theorem pieces_append_lineBreak (text after : List Char) :
    pieces (text ++ '\n' :: after) = pieces text ++ .blank '\n' :: pieces after := by
  induction text using Piece.inductionOn with
  | nil =>
      rw [List.nil_append, pieces_cons, pieces_nil]
      rfl
  | cons char rest ih =>
      have split := Piece.drop_append_of_isPrefix after (Piece.isPrefix_first char rest)
      rw [List.cons_append] at split
      rw [List.cons_append, pieces_cons, pieces_cons,
        Piece.first_append_lineBreak, split, ih]
      rfl

namespace Lexed

theorem lexemes_append_lineBreak (text after : List Char) :
    (ofSource (text ++ '\n' :: after)).lexemes =
      (ofSource text).lexemes ++ (ofSource after).lexemes := by
  rw [lexemes_ofSource, lexemes_ofSource, lexemes_ofSource, pieces_append_lineBreak,
    List.filterMap_append]
  rfl

end Lexed

/-! ### Lines and bytes -/

/-- A token, found some lines and bytes further on. -/
def Token.shift (lines bytes : Nat) (token : Token) : Token :=
  { token with line := token.line + lines, loc := token.loc + bytes }

/-- A skipped character, found some lines and bytes further on. -/
def SkippedChar.shift (lines bytes : Nat) (skipped : SkippedChar) : SkippedChar :=
  { skipped with line := skipped.line + lines, loc := skipped.loc + bytes }

namespace Lexed

namespace Progress

/-- Whether progress is the same as other progress, but for starting some lines
and bytes further on, when something has been found already. -/
structure IsAhead (lines bytes : Nat) (before progress ahead : Progress) : Prop where
  line : ahead.line = progress.line + lines
  loc : ahead.loc = progress.loc + bytes
  tokens : ahead.tokens = progress.tokens.map (Token.shift lines bytes) ++ before.tokens
  skipped : ahead.skipped =
    progress.skipped.map (SkippedChar.shift lines bytes) ++ before.skipped

variable {lines bytes : Nat} {before progress ahead : Progress}

theorem IsAhead.step (isAhead : IsAhead lines bytes before progress ahead)
    (piece : Piece) :
    IsAhead lines bytes before (progress.step piece) (ahead.step piece) where
  line := by
    rw [line_step, line_step, isAhead.line]
    omega
  loc := by
    rw [loc_step, loc_step, isAhead.loc]
    omega
  tokens := by
    cases piece with
    | lexeme kind text =>
        simp only [Progress.step, pass, isAhead.tokens, isAhead.line, isAhead.loc,
          List.map_cons]
        rfl
    | _ => exact isAhead.tokens
  skipped := by
    cases piece with
    | stray char =>
        simp only [Progress.step, pass, isAhead.skipped, isAhead.line, isAhead.loc,
          List.map_cons]
        rfl
    | _ => exact isAhead.skipped

theorem IsAhead.foldl (isAhead : IsAhead lines bytes before progress ahead)
    (pieces : List Piece) :
    IsAhead lines bytes before (pieces.foldl Progress.step progress)
      (pieces.foldl Progress.step ahead) := by
  induction pieces generalizing progress ahead with
  | nil => exact isAhead
  | cons piece rest ih => exact ih (isAhead.step piece)

end Progress

/-- Of two texts with a line break between them, the second one is surveyed as
it is alone, but behind the first. -/
theorem isAhead_append_lineBreak (text after : List Char) :
    Progress.IsAhead (text.count '\n' + 1) (Text.byteLength text + 1) (survey text)
      (survey after) (survey (text ++ '\n' :: after)) := by
  have begins :
      Progress.IsAhead (text.count '\n' + 1) (Text.byteLength text + 1) (survey text)
      Progress.start ((survey text).step (.blank '\n')) := by
    constructor
    · rw [Progress.line_step, line_survey, if_pos rfl, Nat.add_comm]
      rfl
    · rw [Progress.loc_step, loc_survey, Progress.start, Nat.zero_add]
      rfl
    · rfl
    · rfl
  have joined : survey (text ++ '\n' :: after) =
      (pieces after).foldl Progress.step ((survey text).step (.blank '\n')) := by
    rw [survey, pieces_append_lineBreak, List.foldl_append, List.foldl_cons, ← survey]
  rw [joined]
  exact begins.foldl (pieces after)

/-- Of two texts with a line break between them, the tokens of the second one
are found behind those of the first, but the end of the first is none. -/
theorem tokens_append_lineBreak (text after : List Char) :
    (ofSource (text ++ '\n' :: after)).tokens =
      (survey text).tokens.reverse ++ (ofSource after).tokens.map
          (Token.shift (text.count '\n' + 1) (Text.byteLength text + 1)) := by
  have ahead := isAhead_append_lineBreak text after
  rw [tokens_ofSource, tokens_ofSource, ahead.tokens, ahead.loc, ahead.line,
    List.reverse_append, List.map_append, List.map_reverse, List.append_assoc]
  rfl

/-- Of two texts with a line break between them, the skipped characters of the
second one are found behind the first. -/
theorem skipped_append_lineBreak (text after : List Char) :
    (ofSource (text ++ '\n' :: after)).skipped = (ofSource text).skipped ++
      (ofSource after).skipped.map
        (SkippedChar.shift (text.count '\n' + 1) (Text.byteLength text + 1)) := by
  simp only [ofSource, Progress.finish, (isAhead_append_lineBreak text after).skipped,
    List.reverse_append, List.map_reverse]

/-- Splitting a source into tokens is local to its lines: with a line break between
them, two texts have the tokens and the skipped characters that each of them has, the
second moved on. -/
theorem read_append_lineBreak (text after : String) :
    ∃ (lexed lexedToo joined : Lexed) (body : List Token),
      (read text.toList false).outcome = .ok lexed ∧
      (read after.toList false).outcome = .ok lexedToo ∧
      (read (text ++ "\n" ++ after).toList false).outcome = .ok joined ∧
      lexed.tokens =
        body ++ [Token.endAt text.utf8ByteSize (text.toList.count '\n' + 1)] ∧
      joined.tokens =
        body ++ lexedToo.tokens.map
          (Token.shift (text.toList.count '\n' + 1) (text.utf8ByteSize + 1)) ∧
      joined.skipped =
        lexed.skipped ++ lexedToo.skipped.map
          (SkippedChar.shift (text.toList.count '\n' + 1) (text.utf8ByteSize + 1)) ∧
      pieces (text ++ "\n" ++ after).toList =
        pieces text.toList ++ .blank '\n' :: pieces after.toList := by
  have joined : (text ++ "\n" ++ after).toList = text.toList ++ '\n' :: after.toList :=
    by simp
  rw [joined, ← Text.byteLength_toList]
  refine ⟨ofSource text.toList, ofSource after.toList, _,
    (survey text.toList).tokens.reverse, rfl, rfl, rfl, ?_, tokens_append_lineBreak _ _,
    skipped_append_lineBreak _ _, pieces_append_lineBreak _ _⟩
  rw [tokens_ofSource, loc_survey, line_survey, Nat.add_comm]

end Lexed

end StackCompiler
