import StackCompiler.Diagnostic
import StackCompiler.Proofs.Text.Bytes
import StackCompiler.Proofs.Token.Places

/-!
# Line numbers

Splitting a source into tokens counts its lines piece by piece, and a diagnostic
counts them from the beginning of the source up to its place. Both find the line
breaks among the bytes before an offset (`Lexed.lines_of_read`), so a token is
in the line in which a fault at its place is reported, and no token is in an
earlier line than one before it.
-/

namespace StackCompiler

namespace Text

/-- The line of a byte offset: one more than there are line breaks among the
bytes before it. -/
def lineAt (text : List Char) (loc : Nat) : Nat :=
  ((bytes text).take loc).count '\n'.toUInt8 + 1

/-- The byte of a line break is part of no other character. -/
theorem lineBreak_not_mem_utf8EncodeChar {char : Char} (noBreak : char ≠ '\n') :
    '\n'.toUInt8 ∉ String.utf8EncodeChar char := by
  have code : char.val.toNat = char.toNat := rfl
  have other : char.toNat ≠ 10 := fun same => noBreak (Char.toNat_inj.1 same)
  have ten : '\n'.toUInt8.toNat = 10 := rfl
  fun_cases String.utf8EncodeChar char
  all_goals
    simp only [List.mem_cons, List.not_mem_nil, or_false, not_or, ← UInt8.toNat_inj,
      UInt8.toNat_ofNat']
    omega

theorem count_utf8EncodeChar (char : Char) :
    (String.utf8EncodeChar char).count '\n'.toUInt8 = if char = '\n' then 1 else 0 := by
  split
  next isBreak =>
    rw [isBreak]
    rfl
  next noBreak => exact List.count_eq_zero.2 (lineBreak_not_mem_utf8EncodeChar noBreak)

/-- No character that is left undivided counts: a line break has a single byte. -/
theorem count_take_utf8EncodeChar {char : Char} {loc : Nat}
    (beyond : ¬ char.utf8Size ≤ loc) :
    ((String.utf8EncodeChar char).take loc).count '\n'.toUInt8 = 0 := by
  rw [List.count_eq_zero]
  intro found
  by_cases isBreak : char = '\n'
  · subst isBreak
    obtain rfl : loc = 0 := Nat.lt_one_iff.1 (Nat.not_le.1 beyond)
    contradiction
  · exact lineBreak_not_mem_utf8EncodeChar isBreak (List.mem_of_mem_take found)

/-- On the way to the last place that is not beyond an offset, as many line
breaks are passed as there are among the bytes before the offset. -/
theorem count_behind_advance (behind : List Char) (loc : Nat) (ahead : List Char) :
    (Place.advance behind loc ahead).behind.count '\n' =
      behind.count '\n' + ((bytes ahead).take loc).count '\n'.toUInt8 := by
  induction ahead generalizing behind loc with
  | nil => simp [Place.advance, bytes]
  | cons char ahead ih =>
      have parts : bytes (char :: ahead) = String.utf8EncodeChar char ++ bytes ahead :=
        List.flatMap_cons
      have length := String.length_utf8EncodeChar char
      rw [Place.advance, parts, List.take_append, length, List.count_append]
      split
      next fits =>
        rw [ih, @List.take_of_length_le _ loc (String.utf8EncodeChar char)
            (length ▸ fits), count_utf8EncodeChar, List.count_cons]
        simp only [beq_iff_eq]
        omega
      next beyond =>
        have nothing : loc - char.utf8Size = 0 := by omega
        rw [count_take_utf8EncodeChar beyond, nothing, List.take_zero, List.count_nil]
        rfl

/-- A diagnostic reports the line of its offset, wherever that is. -/
theorem line_ofOffset (text : List Char) (loc : Nat) :
    (Anchor.ofOffset text loc).line = lineAt text loc := by
  have counts := count_behind_advance [] loc text
  rw [List.count_nil, Nat.zero_add] at counts
  exact congrArg (· + 1) counts

theorem lineAt_byteLength (before after : List Char) :
    lineAt (before ++ after) (byteLength before) = before.count '\n' + 1 := by
  rw [← line_ofOffset, Anchor.ofOffset, Place.ofOffset_byteLength, Place.anchor,
    List.count_reverse]

end Text

theorem Diagnostic.line?_malformedAt (source : List Char) (loc : Nat)
    (message : String) :
    (malformedAt source loc message).line? = some (Text.lineAt source loc) :=
  congrArg some (Text.line_ofOffset source loc)

namespace Placed

variable {source : List Char} {placed : Placed}

theorem line_eq (isPlaced : placed ∈ all [] (pieces source)) :
    placed.line = Text.lineAt source placed.loc := by
  obtain ⟨after, split⟩ := exists_text_of_mem_all isPlaced
  rw [flatMap_chars_pieces, List.nil_append] at split
  rw [split, loc, Text.lineAt_byteLength, line]

theorem line_of_token? {token : Token} (isToken : placed.token? = some token) :
    token.line = placed.line := by
  unfold token? at isToken
  split at isToken
  next => rw [← Option.some.inj isToken]
  next => contradiction

theorem place_of_skipped? {skipped : SkippedChar}
    (isSkipped : placed.skipped? = some skipped) :
    skipped.line = placed.line ∧ skipped.loc = placed.loc := by
  unfold skipped? at isSkipped
  split at isSkipped
  next => exact Option.some.inj isSkipped ▸ ⟨rfl, rfl⟩
  next => contradiction

end Placed

namespace Lexed

namespace Progress

/-- Whether the tokens found so far are in the order of their lines, up to
the current line. -/
structure Ordered (progress : Progress) : Prop where
  pairwise : progress.tokens.Pairwise fun later earlier => earlier.line ≤ later.line
  le_line : ∀ token ∈ progress.tokens, token.line ≤ progress.line

theorem ordered_start : start.Ordered := ⟨.nil, List.forall_mem_nil _⟩

theorem Ordered.step {progress : Progress} (ordered : progress.Ordered)
    (piece : Piece) : (progress.step piece).Ordered := by
  have onward : progress.line ≤ (progress.step piece).line := by
    rw [line_step]
    exact Nat.le_add_right _ _
  cases piece with
  | lexeme kind text =>
      refine ⟨List.pairwise_cons.2 ⟨ordered.le_line, ordered.pairwise⟩, ?_⟩
      exact List.forall_mem_cons.2
        ⟨onward, fun token found => (ordered.le_line token found).trans onward⟩
  | _ =>
      exact ⟨ordered.pairwise,
        fun token found => (ordered.le_line token found).trans onward⟩

theorem Ordered.foldl {progress : Progress} (ordered : progress.Ordered)
    (pieces : List Piece) : (pieces.foldl Progress.step progress).Ordered := by
  induction pieces generalizing progress with
  | nil => exact ordered
  | cons piece rest ih => exact ih (ordered.step piece)

end Progress

variable {source : List Char}

theorem line_of_mem_tokens {token : Token} (found : token ∈ (ofSource source).tokens) :
    token.line = Text.lineAt source token.loc := by
  rw [tokens_ofSource, List.mem_append, List.mem_singleton,
    (records_survey source).tokens] at found
  rcases found with isLexeme | rfl
  · obtain ⟨placed, isPlaced, isToken⟩ := List.mem_filterMap.1 isLexeme
    rw [Placed.line_of_token? isToken, Placed.loc_of_token? isToken,
      Placed.line_eq isPlaced]
  · have atEnd := Text.lineAt_byteLength source []
    rw [List.append_nil] at atEnd
    rw [Token.endAt, line_survey, loc_survey, atEnd]

theorem line_of_mem_skipped {skipped : SkippedChar}
    (found : skipped ∈ (ofSource source).skipped) :
    skipped.line = Text.lineAt source skipped.loc := by
  rw [ofSource, Progress.finish, (records_survey source).skipped] at found
  obtain ⟨placed, isPlaced, isSkipped⟩ := List.mem_filterMap.1 found
  obtain ⟨sameLine, sameLoc⟩ := Placed.place_of_skipped? isSkipped
  rw [sameLine, sameLoc, Placed.line_eq isPlaced]

/-- No token is in an earlier line than one before it. -/
theorem pairwise_line_tokens (source : List Char) :
    (ofSource source).tokens.Pairwise (·.line ≤ ·.line) := by
  have ordered : (survey source).Ordered := Progress.ordered_start.foldl (pieces source)
  rw [ofSource, Progress.finish, List.pairwise_reverse]
  exact List.pairwise_cons.2 ⟨ordered.le_line, ordered.pairwise⟩

/-- The lines of tokens and of skipped characters count the line breaks before them, and
they are the lines that diagnostics report there. They never decrease. -/
theorem lines_of_read {strict : Bool} {lexed : Lexed}
    (reads : (read source strict).outcome = .ok lexed) :
    (∀ token ∈ lexed.tokens, token.line = Text.lineAt source token.loc ∧
      ∀ message, (Diagnostic.malformedAt source token.loc message).line? =
        some token.line) ∧
    (∀ skipped ∈ lexed.skipped, skipped.line = Text.lineAt source skipped.loc ∧
      ∀ message, (Diagnostic.malformedAt source skipped.loc message).line? =
        some skipped.line) ∧
    lexed.tokens.Pairwise (·.line ≤ ·.line) := by
  obtain rfl := eq_ofSource_of_read reads
  refine ⟨fun token found => ?_, fun skipped found => ?_, pairwise_line_tokens source⟩
  · rw [line_of_mem_tokens found]
    exact ⟨rfl, Diagnostic.line?_malformedAt source token.loc⟩
  · rw [line_of_mem_skipped found]
    exact ⟨rfl, Diagnostic.line?_malformedAt source skipped.loc⟩

/-- A comment, line breaks of both kinds, and a character of two bytes
that is skipped. -/
theorem lines_of_read_mixed :
    let source := "a//\r\né\nb".toList
    (read source false).outcome =
        .ok ⟨[⟨.identifier, "a", 0, 1⟩, ⟨.identifier, "b", 8, 3⟩, .endAt 9 3],
          [⟨'é', 2, 5⟩]⟩ ∧
      Text.lineAt source 5 = 2 ∧ Text.lineAt source 8 = 3 ∧
      ∀ message, (Diagnostic.malformedAt source 8 message).line? = some 3 := by
  have reads : (read "a//\r\né\nb".toList false).outcome =
      .ok ⟨[⟨.identifier, "a", 0, 1⟩, ⟨.identifier, "b", 8, 3⟩, .endAt 9 3],
        [⟨'é', 2, 5⟩]⟩ := by
    decide +kernel
  obtain ⟨ofTokens, ofSkipped, _⟩ := lines_of_read reads
  obtain ⟨inThird, reported⟩ := ofTokens ⟨.identifier, "b", 8, 3⟩ (by decide)
  obtain ⟨inSecond, _⟩ := ofSkipped ⟨'é', 2, 5⟩ (by decide)
  exact ⟨reads, inSecond.symm, inThird.symm, reported⟩

end Lexed

end StackCompiler
