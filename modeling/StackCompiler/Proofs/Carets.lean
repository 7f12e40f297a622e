import StackCompiler.Proofs.Reading.Building
import StackCompiler.Proofs.Strictness
import StackCompiler.Proofs.Text.Anchors
import StackCompiler.Proofs.Token.LineNumbers

/-!
# Carets under quoted lines

What keeps a source from compiling is reported where a character stands that is
no white space, or at the end of the source (`exists_loc_of_compile`). In the
first case the caret is under a character of the quoted line. In the second case
it is directly behind the line, unless the source ends with carriage returns,
which the column counts although the quoted line is without them
(`caret_of_compile`).
-/

namespace StackCompiler

open Text

namespace Text

/-- Whether a character that is no white space stands at an offset. -/
def SolidAt (text : List Char) (loc : Nat) : Prop :=
  ∃ before char after, text = before ++ char :: after ∧ byteLength before = loc ∧
    Piece.isBlank char = false

/-- Only a text that ends with a carriage return has any at its end. -/
theorem trailingReturns_eq_zero {text : List Char} (ends : text.getLast? ≠ some '\r') :
    trailingReturns text = 0 := by
  rw [List.getLast?_eq_head?_reverse] at ends
  rw [trailingReturns]
  cases split : text.reverse with
  | nil => rfl
  | cons last rest =>
      rw [split] at ends
      rw [List.takeWhile_cons_of_neg (by simpa using ends)]
      rfl

/-- Line breaks come before the carriage returns at the end of a line, so they
are no limit to these. -/
theorem takeWhile_return_takeWhile (text : List Char) :
    (text.takeWhile (· != '\n')).takeWhile (· == '\r') =
      text.takeWhile (· == '\r') := by
  rw [List.takeWhile_takeWhile]
  congr 1
  funext char
  rw [Bool.eq_iff_iff, decide_eq_true_iff, and_iff_left_iff_imp]
  intro isReturn
  rw [eq_of_beq isReturn]
  rfl

namespace Place

/-- The column of a character that is no white space does not go beyond
the quoted line. -/
theorem column_le_of_ahead {place : Place} {char : Char} {rest : List Char}
    (ahead : place.ahead = char :: rest) (solid : Piece.isBlank char = false) :
    place.anchor.column ≤ place.anchor.sourceLine.length := by
  have noBreak : char ≠ '\n' := by
    rintro rfl
    contradiction
  have noReturn : char ≠ '\r' := by
    rintro rfl
    contradiction
  have here : (place.lineBehind.reverse ++ place.lineAhead)[place.lineBehind.length]? =
      some char := by
    rw [List.getElem?_append_right (by simp), lineAhead, ahead,
      List.takeWhile_cons_of_pos (by simpa using noBreak)]
    simp
  -- Otherwise the character would be one of those that have been cut off.
  by_contra beyond
  have column : place.anchor.column = place.lineBehind.length + 1 := rfl
  rw [← sourceLine_append,
    List.getElem?_append_right (by rw [String.length_toList]; omega)] at here
  exact noReturn (List.eq_of_mem_replicate (List.mem_of_getElem? here))

/-- The column of the end counts the carriage returns that the quoted
line is without. -/
theorem column_of_ahead_eq_nil {place : Place} (atEnd : place.ahead = []) :
    place.anchor.column =
      place.anchor.sourceLine.length + trailingReturns place.text + 1 := by
  have sameReturns :
      trailingReturns place.lineBehind.reverse = trailingReturns place.text := by
    rw [text, atEnd, List.append_nil, trailingReturns, trailingReturns,
      List.reverse_reverse, List.reverse_reverse, lineBehind,
      takeWhile_return_takeWhile]
  have lengths := congrArg List.length place.sourceLine_append
  rw [lineAhead, atEnd, List.takeWhile_nil, List.append_nil, List.length_append,
      String.length_toList, List.length_replicate, sameReturns, List.length_reverse]
    at lengths
  rw [lengths, anchor]

end Place

end Text

/-! ### Where faults are -/

theorem Placed.piece_mem_of_mem_all {before : List Char} {found : List Piece}
    {placed : Placed} (isPlaced : placed ∈ all before found) :
    placed.piece ∈ found := by
  induction found generalizing before with
  | nil => contradiction
  | cons piece found ih =>
      rcases List.mem_cons.1 isPlaced with rfl | later
      · exact List.mem_cons_self
      · exact List.mem_cons_of_mem _ (ih later)

/-- A piece that is not itself white space does not begin with any. -/
theorem Placed.solidAt {source : List Char} {placed : Placed}
    (isPlaced : placed ∈ all [] (pieces source))
    (notBlank : ∀ char, placed.piece ≠ .blank char) : SolidAt source placed.loc := by
  obtain ⟨after, split⟩ := exists_text_of_mem_all isPlaced
  rw [flatMap_chars_pieces, List.nil_append] at split
  obtain ⟨char, rest, isFirst⟩ :=
    exists_first_of_mem_pieces (piece_mem_of_mem_all isPlaced)
  have solid : Piece.isBlank char = false := by
    by_contra blank
    exact notBlank char (isFirst.trans (if_pos (Bool.not_eq_false _ ▸ blank)))
  have isPrefix := Piece.isPrefix_first char rest
  have some := Piece.first_length_pos char rest
  rw [← isFirst] at isPrefix some
  cases chars : placed.piece.chars with
  | nil =>
      rw [chars] at some
      contradiction
  | cons first more =>
      rw [chars] at split isPrefix
      obtain ⟨rfl, _⟩ := List.cons_prefix_cons.1 isPrefix
      exact ⟨placed.before, first, more ++ after, split, rfl, solid⟩

/-- The tokens of a source, but for the last one, and the characters skipped
stand where a character is that is no white space. -/
theorem Lexed.solidAt_of_mem_tokens {source : List Char} {token : Token}
    (found : token ∈ (ofSource source).tokens) :
    token.loc = byteLength source ∨ SolidAt source token.loc := by
  rw [tokens_ofSource, List.mem_append, List.mem_singleton,
    (records_survey source).tokens] at found
  rcases found with isLexeme | rfl
  · obtain ⟨placed, isPlaced, isToken⟩ := List.mem_filterMap.1 isLexeme
    rw [Placed.loc_of_token? isToken]
    refine .inr (Placed.solidAt isPlaced fun char isBlank => ?_)
    rw [Placed.token?, isBlank] at isToken
    contradiction
  · exact .inl (loc_survey source)

theorem Lexed.solidAt_of_mem_skipped {source : List Char} {skipped : SkippedChar}
    (found : skipped ∈ (ofSource source).skipped) : SolidAt source skipped.loc := by
  rw [ofSource, Progress.finish, (records_survey source).skipped] at found
  obtain ⟨placed, isPlaced, isSkipped⟩ := List.mem_filterMap.1 found
  rw [(Placed.place_of_skipped? isSkipped).2]
  refine Placed.solidAt isPlaced fun char isBlank => ?_
  rw [Placed.skipped?, isBlank] at isSkipped
  contradiction

/-- A source is split into tokens, or a character that would be skipped is refused. -/
theorem Lexed.read_or_refuses (source : List Char) (strict : Bool) :
    (read source strict).outcome = .ok (ofSource source) ∨
    ∃ skipped ∈ (ofSource source).skipped,
      (read source strict).outcome =
        .error (.invalidCharacterAt source skipped.loc skipped.char) := by
  cases strict with
  | false => exact .inl rfl
  | true =>
      cases found : (ofSource source).skipped with
      | nil =>
          rw [read_strict_of_skipped_eq_nil found]
          exact .inl rfl
      | cons first later =>
          rw [read_strict_of_skipped_eq_cons found]
          exact .inr ⟨first, List.mem_cons_self, rfl⟩

/-- A failure to read tokens as a program is at one of them, or at the
end of the source. -/
theorem CompilationUnit.loc_of_ofTokens? {tokens : List Token} {failure : Failure}
    (fails : ofTokens? tokens = .error failure) (source : List Char) :
    failure.loc source = byteLength source ∨
    ∃ token ∈ tokens, failure.loc source = token.loc := by
  rw [ofTokens?] at fails
  have isSuffix := local_read.isSuffix ⟨tokens, Budget.unused⟩
  cases run : CompilationUnit.read ⟨tokens, Budget.unused⟩ with
  | ok unit after =>
      rw [run] at fails
      contradiction
  | error problem stuck =>
      rw [run] at fails isSuffix
      obtain rfl := Except.error.inj fails
      cases next : stuck.rest with
      | nil => exact .inl rfl
      | cons token later =>
          change stuck.rest <:+ tokens at isSuffix
          rw [next] at isSuffix
          exact .inr ⟨token, isSuffix.subset List.mem_cons_self, rfl⟩

/-- What keeps a source from compiling is reported where a character stands that
is no white space, or at the end. -/
theorem exists_loc_of_compile {source : String} {strict : Bool}
    {diagnostic : Diagnostic}
    (fails : (compile source strict).outcome = .error diagnostic) :
    ∃ loc, (loc = byteLength source.toList ∨ SolidAt source.toList loc) ∧
      ((∃ message, diagnostic = .malformedAt source.toList loc message) ∨
        ∃ char, diagnostic = .invalidCharacterAt source.toList loc char) := by
  rcases Lexed.read_or_refuses source.toList strict with reads |
    ⟨skipped, isSkipped, refuses⟩
  · rw [outcome_compile_of_read reads] at fails
    cases parsed : CompilationUnit.ofTokens? (Lexed.ofSource source.toList).tokens with
    | ok unit =>
        rw [parsed] at fails
        contradiction
    | error failure =>
        rw [parsed] at fails
        obtain rfl := Except.error.inj fails
        refine ⟨failure.loc source.toList, ?_, .inl ⟨failure.message, rfl⟩⟩
        rcases CompilationUnit.loc_of_ofTokens? parsed source.toList with atEnd |
          ⟨token, isToken, atToken⟩
        · exact .inl atEnd
        · rw [atToken]
          exact Lexed.solidAt_of_mem_tokens isToken
  · rw [outcome_compile, outcome_readUnit, refuses] at fails
    obtain rfl := Except.error.inj fails
    exact ⟨skipped.loc, .inr (Lexed.solidAt_of_mem_skipped isSkipped),
      .inr ⟨skipped.char, rfl⟩⟩

/-- The caret of a fault is under a character of the quoted line, or the fault is at the
end of the source. Then the caret is behind the line, and behind the carriage returns
that the source ends with. -/
theorem caret_of_compile {source : String} {strict : Bool} {diagnostic : Diagnostic}
    (fails : (compile source strict).outcome = .error diagnostic) :
    ∃ anchor : Anchor,
      ((∃ message, diagnostic = .malformed anchor message) ∨
        ∃ char, diagnostic = .invalidCharacter anchor char) ∧
      1 ≤ anchor.column ∧
      (anchor.column ≤ anchor.sourceLine.length ∨
        anchor = .ofOffset source.toList (byteLength source.toList) ∧
        anchor.column = anchor.sourceLine.length + trailingReturns source.toList + 1) ∧
      (source.toList.getLast? ≠ some '\r' →
        anchor.column ≤ anchor.sourceLine.length + 1) := by
  obtain ⟨loc, place, reported⟩ := exists_loc_of_compile fails
  have caret : (Anchor.ofOffset source.toList loc).column ≤
      (Anchor.ofOffset source.toList loc).sourceLine.length ∨
      loc = byteLength source.toList ∧ (Anchor.ofOffset source.toList loc).column =
        (Anchor.ofOffset source.toList loc).sourceLine.length +
            trailingReturns source.toList + 1 := by
    rcases place with rfl | ⟨before, char, after, split, rfl, solid⟩
    · have atEnd := Place.ofOffset_byteLength source.toList []
      rw [List.append_nil] at atEnd
      have column := Place.column_of_ahead_eq_nil (congrArg Place.ahead atEnd)
      rw [Place.text_ofOffset] at column
      exact .inr ⟨rfl, column⟩
    · left
      rw [Anchor.ofOffset, split, Place.ofOffset_byteLength]
      exact Place.column_le_of_ahead rfl solid
  refine ⟨Anchor.ofOffset source.toList loc, reported, Nat.le_add_left 1 _, ?_,
    fun ends => ?_⟩
  · exact caret.imp_right fun behind => ⟨congrArg _ behind.1, behind.2⟩
  · rcases caret with under | ⟨_, column⟩
    · exact Nat.le_succ_of_le under
    · rw [trailingReturns_eq_zero ends] at column
      exact Nat.le_of_eq column

/-- The second operator is under the caret, with a character of two bytes before
it in a comment of the line before. -/
theorem caret_of_compile_operator :
    (compile "a = 1 // é\r\n  + * 2;" false).outcome =
      .error (.malformed ⟨2, 5, "  + * 2;"⟩
        "unexpected punctuator \"*\", expected an expression") ∧
    (5 ≤ "  + * 2;".length ∨
      5 = "  + * 2;".length + trailingReturns "a = 1 // é\r\n  + * 2;".toList + 1) := by
  have fails : (compile "a = 1 // é\r\n  + * 2;" false).outcome =
      .error (.malformed ⟨2, 5, "  + * 2;"⟩
        "unexpected punctuator \"*\", expected an expression") := by
    decide +kernel
  obtain ⟨anchor, ⟨message, same⟩ | ⟨char, same⟩, _, caret, _⟩ := caret_of_compile fails
  · obtain ⟨rfl, _⟩ := Diagnostic.malformed.inj same
    exact ⟨fails, caret.imp_right And.right⟩
  · contradiction

/-- A source that ends too early, and with a carriage return: the caret is
neither under the quoted line nor directly behind it. -/
theorem not_column_le_of_compile :
    ¬ ∀ (source : String) (strict : Bool) (diagnostic : Diagnostic),
      (compile source strict).outcome = .error diagnostic →
        ∃ anchor, diagnostic.anchor? = some anchor ∧ 1 ≤ anchor.column ∧
          anchor.column ≤ anchor.sourceLine.length + 1 := by
  intro bound
  have fails : (compile "print a\r" false).outcome =
      .error (.malformed ⟨1, 9, "print a"⟩ "unexpected end of input, expected \";\"") :=
    by decide +kernel
  obtain ⟨anchor, located, _, within⟩ := bound _ _ _ fails
  obtain rfl := Option.some.inj located
  revert within
  decide

end StackCompiler
