import StackCompiler.Proofs.Text.Resolution
import StackCompiler.Proofs.Token.Places

/-!
# Scanning by byte offsets

A source can be split into tokens by moving a byte offset over it. What comes
next is told from the byte at the offset, or from the text that follows it, and
a token is only remembered by its kind, its offset and its length.

The offset always is one at which the pieces found so far end, so the scanner
makes the steps that taking in the pieces makes (`step?_ofProgress`), and no
read, slice or difference fails on the way to the end (`run?_start`).
-/

namespace StackCompiler

/-- A token without its text. -/
structure Span where
  kind : Token.Kind
  loc : Nat
  /-- The number of bytes that the text of the token takes up. -/
  len : Nat
  line : Nat
  deriving DecidableEq, Repr

/-- Where a token stands. -/
def Token.span (token : Token) : Span := ⟨token.kind, token.loc, token.len, token.line⟩

namespace Lexed.Progress

/-- Takes in the next piece of the source, in either mode. -/
def takeIn (strict : Bool) (source : List Char) (progress : Progress) (piece : Piece) :
    Except Diagnostic Progress :=
  if strict then progress.stepStrictly source piece else .ok (progress.step piece)

theorem takeIn_of_ne_stray (strict : Bool) (source : List Char) (progress : Progress)
    {piece : Piece} (kept : ∀ char, piece ≠ .stray char) :
    progress.takeIn strict source piece = .ok (progress.step piece) := by
  cases strict with
  | false => rfl
  | true =>
      cases piece with
      | stray char => exact absurd rfl (kept char)
      | _ => rfl

theorem step_of_takeIn {strict : Bool} {source : List Char} {progress next : Progress}
    {piece : Piece} (taken : progress.takeIn strict source piece = .ok next) :
    next = progress.step piece := by
  cases strict with
  | false => exact (Except.ok.inj taken).symm
  | true =>
      cases piece with
      | stray char => contradiction
      | _ => exact (Except.ok.inj taken).symm

end Lexed.Progress

namespace Scanner

open Text Piece

/-! ### The scanner -/

/-- Where the characters of a class end that stand at an offset. -/
def skipWhile? (belongs : Char → Bool) (source : List Char) (loc : Nat) : Option Nat :=
  if inside : loc < (bytes source).length then do
    let byte ← byteAt? source loc
    if isByteOf belongs byte then skipWhile? belongs source (loc + 1) else some loc
  else some loc
  termination_by (bytes source).length - loc
  decreasing_by exact Nat.sub_succ_lt_self _ _ inside

/-- Where the exponent ends that stands at an offset, which is there
if there is none. -/
def skipExponent? (source : List Char) (loc : Nat) : Option Nat :=
  if hasByteAt ['e', 'E'].contains source loc then
    let power :=
      if hasByteAt ['+', '-'].contains source (loc + 1) then loc + 1 + 1 else loc + 1
    if hasByteAt Char.isDigit source power then skipWhile? Char.isDigit source power
    else some loc
  else some loc

/-- The kind of a word. -/
def wordKind (text : List Char) : Token.Kind :=
  if Token.keywords.contains (String.ofList text) then .keyword else .identifier

/-- The kind and the length of the word at an offset. -/
def word? (source : List Char) (loc : Nat) : Option (Token.Kind × Nat) := do
  let last ← skipWhile? Char.isAlphanum source loc
  let text ← sliceBetween? source loc last
  let len ← subtract? last loc
  return (wordKind text, len)

/-- The kind of a number and where it ends, when its whole part ends at an offset. -/
def fraction? (source : List Char) (loc : Nat) : Option (Token.Kind × Nat) :=
  if hasByteAt (· == '.') source loc && hasByteAt Char.isDigit source (loc + 1) then do
    let decimals ← skipWhile? Char.isDigit source (loc + 1)
    let last ← skipExponent? source decimals
    return (.double, last)
  else return (.integer, loc)

/-- The kind and the length of the number at an offset. -/
def number? (source : List Char) (loc : Nat) : Option (Token.Kind × Nat) := do
  let whole ← skipWhile? Char.isDigit source loc
  let (kind, last) ← fraction? source whole
  let len ← subtract? last loc
  return (kind, len)

/-- The punctuation marks of two characters. -/
def comparisons : List (List Char) := [['=', '='], ['<', '='], ['>', '=']]

/-- The kind and the length of the lexeme at an offset, if one begins there. -/
def lexeme? (source : List Char) (loc : Nat) : Option (Option (Token.Kind × Nat)) := do
  let byte ← byteAt? source loc
  if isByteOf Char.isAlpha byte then
    return some (← word? source loc)
  else if isByteOf Char.isDigit byte then
    return some (← number? source loc)
  else
    let ahead ← sliceFrom? source loc
    match comparisons.find? (·.isPrefixOf ahead) with
    | some symbol => return some (.punctuator, byteLength symbol)
    | none =>
        return if isByteOf marks.contains byte then some (.punctuator, 1) else none

/-- What has been found so far. The lists hold the latest entry first. -/
structure State where
  loc : Nat
  line : Nat
  spans : List Span
  skipped : List SkippedChar
  deriving DecidableEq, Repr

/-- Nothing has been found yet. -/
def State.start : State := ⟨0, 1, [], []⟩

/-- Takes in a token. -/
def State.push (state : State) (kind : Token.Kind) (len : Nat) : State :=
  { state with
    loc := state.loc + len
    spans := ⟨kind, state.loc, len, state.line⟩ :: state.spans }

/-- Refuses the next character, or goes on behind it. -/
def refuse? (strict : Bool) (source : List Char) (state : State) (ahead : List Char) :
    Option (Except Diagnostic State) := do
  let char := ahead.head?.getD '\x00'
  if strict then
    let (anchor, _) ← Anchor.resolve? source state.loc
    return .error (.invalidCharacter anchor char)
  else
    return .ok { state with
      loc := state.loc + max char.utf8Size 1
      skipped := ⟨char, state.line, state.loc⟩ :: state.skipped }

/-- Goes on over what comes next. -/
def step? (strict : Bool) (source : List Char) (state : State) :
    Option (Except Diagnostic State) := do
  let byte ← byteAt? source state.loc
  if isByteOf (· == '\n') byte then
    return .ok { state with loc := state.loc + 1, line := state.line + 1 }
  else if isByteOf isBlank byte then
    return .ok { state with loc := state.loc + 1 }
  else
    let ahead ← sliceFrom? source state.loc
    if ['/', '/'].isPrefixOf ahead then
      return .ok { state with
        loc := (find? '\n' ahead).elim (bytes source).length (state.loc + ·) }
    else
      match ← lexeme? source state.loc with
      | some (kind, len) => return .ok (state.push kind len)
      | none => refuse? strict source state ahead

/-- Goes on to the end of the source. A step that does not lead forward would be
made again and again. -/
def run? (strict : Bool) (source : List Char) (state : State) :
    Option (Except Diagnostic State) :=
  if state.loc < (bytes source).length then
    match step? strict source state with
    | none => none
    | some (.error diagnostic) => some (.error diagnostic)
    | some (.ok next) => if state.loc < next.loc then run? strict source next else none
  else some (.ok state)
  termination_by (bytes source).length - state.loc
  decreasing_by exact Nat.sub_lt_sub_left ‹_› ‹_›

/-! ### Where lexemes end -/

theorem skipWhile?_append {belongs : Char → Bool} (isAscii : IsAscii belongs)
    (before text : List Char) :
    skipWhile? belongs (before ++ text) (byteLength before) =
      some (byteLength (before ++ text.takeWhile belongs)) := by
  induction text generalizing before with
  | nil =>
      rw [skipWhile?, dif_neg (by simp), List.takeWhile_nil, List.append_nil]
  | cons char rest ih =>
      rcases byteAt?_append before char rest with ⟨byte, found, told⟩
      have inside : byteLength before < (bytes (before ++ char :: rest)).length := by
        rw [length_bytes, byteLength_append, byteLength_cons]
        exact Nat.lt_add_of_pos_right (Nat.add_pos_left char.utf8Size_pos _)
      rw [skipWhile?, dif_pos inside, found, Option.bind_eq_bind, Option.bind_some,
        told belongs isAscii]
      by_cases member : belongs char
      · have next := ih (before ++ [char])
        rw [isAscii.byteLength_concat before member, ← List.append_cons,
            ← List.append_cons] at next
        rw [if_pos member, List.takeWhile_cons_of_pos member, next]
      · rw [if_neg member, List.takeWhile_cons_of_neg member, List.append_nil]

theorem split_prefix {front text : List Char} (isInitial : front <+: text)
    (before : List Char) :
    before ++ text = before ++ front ++ text.drop front.length := by
  rw [List.append_assoc, List.prefix_iff_eq_append.1 isInitial]

theorem isEmpty_digits (text : List Char) :
    (digits text).isEmpty = !text.head?.any Char.isDigit := by
  cases text with
  | nil => rfl
  | cons char rest =>
      rw [digits, List.takeWhile_cons]
      cases isDigit : char.isDigit <;> simp [isDigit]

theorem isAscii_signs : IsAscii ['+', '-'].contains := isAscii_contains rfl

theorem byteLength_append_sign (before text : List Char) :
    byteLength (before ++ sign text) =
    if text.head?.any ['+', '-'].contains then byteLength before + 1
    else byteLength before := by
  cases text with
  | nil => exact congrArg byteLength (List.append_nil before)
  | cons char rest =>
      by_cases isSign : ['+', '-'].contains char
      · have alone : sign (char :: rest) = [char] := by
          have cases : char = '+' ∨ char = '-' := by simpa using isSign
          rcases cases with rfl | rfl <;> rfl
        rw [alone, List.head?_cons, Option.any_some, if_pos isSign,
          isAscii_signs.byteLength_concat before isSign]
      · have none : sign (char :: rest) = [] := by
          unfold sign
          split <;> simp_all
        rw [none, List.append_nil, List.head?_cons, Option.any_some, if_neg isSign]

theorem skipExponent?_append (before text : List Char) :
    skipExponent? (before ++ text) (byteLength before) =
      some (byteLength (before ++ exponent text)) := by
  have isAsciiMark : IsAscii ['e', 'E'].contains := isAscii_contains rfl
  rw [skipExponent?, hasByteAt_append isAsciiMark]
  cases text with
  | nil => exact congrArg (some ∘ byteLength) (List.append_nil before).symm
  | cons mark rest =>
      have marks : (mark == 'e' || mark == 'E') = ['e', 'E'].contains mark := by
        rw [List.contains_cons, List.contains_cons, List.contains_nil, Bool.or_false]
      rw [List.head?_cons, Option.any_some, exponent, marks]
      by_cases isMark : ['e', 'E'].contains mark
      · have behindMark := isAsciiMark.byteLength_concat before isMark
        have power : (if hasByteAt ['+', '-'].contains (before ++ mark :: rest)
            (byteLength before + 1) then
            byteLength before + 1 + 1 else byteLength before + 1) =
                byteLength (before ++ [mark] ++ sign rest) := by
          rw [← behindMark, List.append_cons, hasByteAt_append isAscii_signs,
            byteLength_append_sign]
        rw [if_pos isMark, isMark, Bool.true_and, isEmpty_digits, Bool.not_not]
        simp only [power]
        rw [List.append_cons, split_prefix (isPrefix_sign rest),
          hasByteAt_append isAscii_isDigit, skipWhile?_append isAscii_isDigit, ← digits]
        split
        next => rw [List.append_assoc, List.append_assoc]; rfl
        next => rw [List.append_nil]
      · rw [if_neg isMark, Bool.eq_false_iff.2 isMark, Bool.false_and,
          if_neg Bool.false_ne_true, List.append_nil]

/-- The kind of a number, by its fraction. -/
def numberKind (fraction : List Char) : Token.Kind :=
  if fraction.isEmpty then .integer else .double

theorem number_eq (whole fraction : List Char) :
    number whole fraction = .lexeme (numberKind fraction) (whole ++ fraction) := by
  rw [number, numberKind]
  split
  next missing => rw [List.isEmpty_iff.1 missing, List.append_nil]
  next => rfl

theorem fraction?_append (before text : List Char) :
    fraction? (before ++ text) (byteLength before) =
      some (numberKind (fraction text), byteLength (before ++ fraction text)) := by
  have isAsciiPoint : IsAscii (· == '.') := isAscii_beq (by decide)
  rw [fraction?, hasByteAt_append isAsciiPoint]
  have missing (none : fraction text = []) :
      some (Token.Kind.integer, byteLength before) =
      some (numberKind (fraction text), byteLength (before ++ fraction text)) := by
    rw [none, List.append_nil]
    rfl
  cases text with
  | nil => exact missing rfl
  | cons char rest =>
      by_cases isPoint : char == '.'
      · obtain rfl := eq_of_beq isPoint
        rw [List.head?_cons, Option.any_some, beq_self_eq_true, Bool.true_and,
            ← isAsciiPoint.byteLength_concat before isPoint,
          List.append_cons, hasByteAt_append isAscii_isDigit]
        cases begins : rest.head?.any Char.isDigit with
        | false =>
            apply missing
            rw [fraction, isEmpty_digits, begins]
            rfl
        | true =>
            have formed : fraction ('.' :: rest) =
                '.' :: (digits rest ++ exponent (rest.drop (digits rest).length)) := by
              rw [fraction, isEmpty_digits, begins]
              rfl
            rw [if_pos rfl, skipWhile?_append isAscii_isDigit, ← digits, split_prefix
                (isPrefix_digits rest), Option.bind_eq_bind, Option.bind_some,
              skipExponent?_append, formed, List.append_assoc, List.append_assoc]
            rfl
      · rw [List.head?_cons, Option.any_some, Bool.eq_false_iff.2 isPoint,
          Bool.false_and]
        apply missing
        unfold fraction
        split
        next point => exact absurd (beq_iff_eq.2 (List.cons.inj point).1) isPoint
        next => rfl

theorem number?_append (before text : List Char) :
    number? (before ++ text) (byteLength before) =
      some (numberKind (fraction (text.drop (digits text).length)),
        byteLength (digits text ++ fraction (text.drop (digits text).length))) := by
  have whole := skipWhile?_append isAscii_isDigit before text
  rw [← digits, split_prefix (isPrefix_digits text)] at whole
  rw [number?, split_prefix (isPrefix_digits text), whole]
  simp only [Option.bind_eq_bind, Option.bind_some, fraction?_append]
  rw [List.append_assoc, byteLength_append, subtract?_add]
  rfl

theorem word_eq (text : List Char) : word text = .lexeme (wordKind text) text := by
  rw [word, wordKind]
  split
  next => rfl
  next => rfl

theorem word?_append (before text : List Char) :
    word? (before ++ text) (byteLength before) =
      some (wordKind (text.takeWhile Char.isAlphanum),
        byteLength (text.takeWhile Char.isAlphanum)) := by
  have spelled := sliceBetween?_append before (text.takeWhile Char.isAlphanum)
    (text.dropWhile Char.isAlphanum)
  rw [List.takeWhile_append_dropWhile] at spelled
  rw [word?, skipWhile?_append isAscii_isAlphanum]
  simp only [Option.bind_eq_bind, Option.bind_some, byteLength_append, spelled,
    subtract?_add]
  rfl

/-! ### What a step amounts to -/

theorem find?_comparisons (char : Char) (rest : List Char) :
    comparisons.find? (·.isPrefixOf (char :: rest)) =
      if comparisonStarts.contains char && rest.head? == some '=' then some [char, '=']
      else none := by
  split
  next comparison =>
    rw [Bool.and_eq_true, List.contains_iff_mem, beq_iff_eq, List.head?_eq_some_iff]
      at comparison
    rcases comparison with ⟨isStart, after, rfl⟩
    have starts : char = '=' ∨ char = '<' ∨ char = '>' := by
      simpa [comparisonStarts] using isStart
    rcases starts with rfl | rfl | rfl <;> rfl
  next noComparison =>
    have formed :
        ∀ symbol ∈ comparisons, ∃ start ∈ comparisonStarts, symbol = [start, '='] := by
      simp [comparisons, comparisonStarts]
    rw [List.find?_eq_none]
    intro symbol isSymbol
    rcases formed symbol isSymbol with ⟨start, isStart, rfl⟩
    rw [List.isPrefixOf_iff_prefix, List.cons_prefix_cons]
    rintro ⟨rfl, after, rfl⟩
    apply noComparison
    rw [List.contains_iff_mem.2 isStart]
    rfl

theorem isPrefixOf_slashes (char : Char) (rest : List Char) :
    ['/', '/'].isPrefixOf (char :: rest) = (char == '/' && rest.head? == some '/') := by
  rw [Bool.eq_iff_iff, List.isPrefixOf_iff_prefix, List.cons_prefix_cons,
    Bool.and_eq_true, beq_iff_eq, beq_iff_eq, List.head?_eq_some_iff, eq_comm]
  exact and_congr_right fun _ => exists_congr fun _ => eq_comm

/-- The kind and the length of the lexeme that a piece is, if it is one. -/
def extent? : Piece → Option (Token.Kind × Nat)
  | .lexeme kind text => some (kind, byteLength text)
  | _ => none

theorem first_eq_lexeme_or_stray {char : Char} {rest : List Char}
    (noBlank : ¬ isBlank char) (noComment : ¬ (char == '/' && rest.head? == some '/')) :
    (∃ kind text, first char rest = .lexeme kind text) ∨
    first char rest = .stray char := by
  rw [first, if_neg noBlank, if_neg noComment]
  split
  next => exact .inl ⟨_, _, word_eq _⟩
  split
  next => exact .inl ⟨_, _, number_eq _ _⟩
  split
  next => exact .inl ⟨_, _, rfl⟩
  split
  next => exact .inl ⟨_, _, rfl⟩
  next => exact .inr rfl

theorem lexeme?_append (before : List Char) {char : Char} {rest : List Char}
    (noBlank : ¬ isBlank char) (noComment : ¬ (char == '/' && rest.head? == some '/')) :
    lexeme? (before ++ char :: rest) (byteLength before) =
      some (extent? (first char rest)) := by
  rcases byteAt?_append before char rest with ⟨byte, found, told⟩
  have isAsciiMark : IsAscii marks.contains := isAscii_contains rfl
  rw [lexeme?, found, Option.bind_eq_bind, Option.bind_some, told _ isAscii_isAlpha,
    told _ isAscii_isDigit, sliceFrom?_append, word?_append, number?_append]
  by_cases isAlpha : char.isAlpha
  · have isAlphanum : char.isAlphanum := by rw [Char.isAlphanum, isAlpha, Bool.true_or]
    rw [if_pos isAlpha, first_of_isAlpha isAlpha, word_eq,
      List.takeWhile_cons_of_pos isAlphanum]
    rfl
  rw [if_neg isAlpha]
  by_cases isDigit : char.isDigit
  · rw [if_pos isDigit, first_of_isDigit isDigit, number_eq, digits,
      List.takeWhile_cons_of_pos isDigit]
    rfl
  rw [if_neg isDigit, Option.bind_eq_bind, Option.bind_some, find?_comparisons,
    told _ isAsciiMark, first, if_neg noBlank, if_neg noComment, if_neg isAlpha,
    if_neg isDigit]
  by_cases comparison : comparisonStarts.contains char && rest.head? == some '='
  · rw [if_pos comparison, if_pos comparison]
    rfl
  rw [if_neg comparison, if_neg comparison]
  by_cases isMark : marks.contains char
  · rw [if_pos isMark, if_pos isMark, extent?, byteLength_cons,
      isAsciiMark.utf8Size isMark]
    rfl
  · rw [if_neg isMark, if_neg isMark]
    rfl

theorem isAscii_isBlank : IsAscii isBlank := by
  intro char blank
  simp only [isBlank, Bool.or_eq_true, beq_iff_eq] at blank
  rcases blank with (((rfl | rfl) | rfl) | rfl) | rfl <;> decide

/-- Progress with the tokens reduced to where they stand. -/
def State.ofProgress (progress : Lexed.Progress) : State :=
  ⟨progress.loc, progress.line, progress.tokens.map Token.span, progress.skipped⟩

section OfProgress

variable (progress : Lexed.Progress)

theorem ofProgress_step_blank {char : Char} (blank : isBlank char)
    (noBreak : char ≠ '\n') :
    State.ofProgress (progress.step (.blank char)) =
      { State.ofProgress progress with loc := progress.loc + 1 } := by
  have sameLine : Piece.blank char ≠ .blank '\n' :=
    fun same => noBreak (Piece.blank.inj same)
  rw [State.ofProgress, Lexed.Progress.loc_step, Lexed.Progress.line_step,
    if_neg sameLine, chars, byteLength_cons, isAscii_isBlank.utf8Size blank]
  rfl

theorem ofProgress_step_comment (text : List Char) :
    State.ofProgress (progress.step (.comment text)) =
      { State.ofProgress progress with loc := progress.loc + byteLength text } := rfl

theorem ofProgress_step_lexeme (kind : Token.Kind) (text : List Char) :
    State.ofProgress (progress.step (.lexeme kind text)) =
      (State.ofProgress progress).push kind (byteLength text) := by
  have len : byteLength text = (String.ofList text).utf8ByteSize := by
    rw [← byteLength_toList, String.toList_ofList]
  rw [len]
  change State.mk _ _ _ _ = _
  rw [Lexed.Progress.loc_step, chars, len]
  rfl

end OfProgress

section Steps

variable (strict : Bool) {before : List Char} {progress : Lexed.Progress}
  (here : progress.loc = byteLength before) (char : Char) (rest : List Char)

theorem refuse?_ofProgress (source : List Char) :
    refuse? strict source (.ofProgress progress) (char :: rest) =
      some ((progress.takeIn strict source (.stray char)).map .ofProgress) := by
  rw [refuse?, Anchor.resolve?_eq]
  cases strict with
  | true => rfl
  | false =>
      rw [List.head?_cons, Option.getD_some, Nat.max_eq_left char.utf8Size_pos]
      rfl

include here in
theorem step?_ofProgress :
    step? strict (before ++ char :: rest) (.ofProgress progress) =
      some ((progress.takeIn strict (before ++ char :: rest) (first char rest)).map
        .ofProgress) := by
  rcases byteAt?_append before char rest with ⟨byte, found, told⟩
  have loc : (State.ofProgress progress).loc = byteLength before := here
  rw [step?, loc, found, Option.bind_eq_bind, Option.bind_some,
    told _ (isAscii_beq (by decide)), told _ isAscii_isBlank, sliceFrom?_append]
  -- A line break is a blank, too, but it is looked for first.
  by_cases isBreak : char == '\n'
  · obtain rfl := eq_of_beq isBreak
    rw [if_pos isBreak, ← here]
    cases strict <;> rfl
  rw [if_neg isBreak]
  by_cases blank : isBlank char
  · rw [if_pos blank, first, if_pos blank,
      Lexed.Progress.takeIn_of_ne_stray _ _ _ (by simp), Except.map,
      ofProgress_step_blank progress blank (by simpa using isBreak), ← here]
    rfl
  rw [if_neg blank, Option.bind_eq_bind, Option.bind_some, isPrefixOf_slashes]
  by_cases isComment : char == '/' && rest.head? == some '/'
  · have line : (find? '\n' (char :: rest)).elim (bytes (before ++ char :: rest)).length
        (byteLength before + ·) =
        byteLength before + byteLength (char :: rest.takeWhile (· != '\n')) := by
      rw [length_bytes, byteLength_append, find?_elim,
        List.takeWhile_cons_of_pos (by simpa using isBreak)]
    rw [if_pos isComment, line, first, if_neg blank, if_pos isComment,
      Lexed.Progress.takeIn_of_ne_stray _ _ _ (by simp), Except.map,
      ofProgress_step_comment, ← here]
    rfl
  rw [if_neg isComment, lexeme?_append before blank isComment]
  rcases first_eq_lexeme_or_stray blank isComment with ⟨kind, text, piece⟩ | piece
  · rw [piece, Lexed.Progress.takeIn_of_ne_stray _ _ _ (by simp), Except.map,
      ofProgress_step_lexeme]
    rfl
  · rw [piece, ← refuse?_ofProgress]
    rfl

/-- Every step leads forward, so the end of the source is reached, and nothing
fails on the way. -/
theorem run?_ofProgress (before text : List Char) (progress : Lexed.Progress)
    (here : progress.loc = byteLength before) :
    run? strict (before ++ text) (.ofProgress progress) =
      some (((pieces text).foldlM
        (Lexed.Progress.takeIn strict (before ++ text)) progress).map .ofProgress) := by
  induction text using Piece.inductionOn generalizing before progress with
  | nil =>
      have atEnd :
          ¬ (State.ofProgress progress).loc < (bytes (before ++ [])).length := by
        rw [List.append_nil, length_bytes, ← here]
        exact Nat.lt_irrefl _
      rw [run?, if_neg atEnd, pieces_nil]
      rfl
  | cons char rest ih =>
      have inside :
          (State.ofProgress progress).loc <
            (bytes (before ++ char :: rest)).length := by
        rw [length_bytes, byteLength_append, ← here]
        exact Nat.lt_add_of_pos_right (Nat.add_pos_left char.utf8Size_pos _)
      rw [run?, if_pos inside, step?_ofProgress strict here, pieces_cons,
        List.foldlM_cons]
      cases taken :
        progress.takeIn strict (before ++ char :: rest) (first char rest) with
      | error diagnostic => rfl
      | ok next =>
          have loc : next.loc = byteLength (before ++ (first char rest).chars) := by
            rw [Lexed.Progress.step_of_takeIn taken, Lexed.Progress.loc_step, here,
              byteLength_append]
          have forth :
              (State.ofProgress progress).loc < (State.ofProgress next).loc := by
            change progress.loc < next.loc
            rw [loc, byteLength_append, ← here]
            exact Nat.lt_add_of_pos_right (byteLength_pos (first_length_pos char rest))
          have later := ih (before ++ (first char rest).chars) next loc
          rw [← split_prefix (isPrefix_first char rest)] at later
          change (if _ then _ else _) = _
          rw [if_pos forth, later]
          rfl

/-- Scanning a whole source finds what its pieces amount to, or refuses the
character that is refused in strict mode. -/
theorem run?_start (source : List Char) :
    run? strict source .start =
      some ((if strict then Lexed.surveyStrictly source
        else .ok (Lexed.survey source)).map .ofProgress) := by
  have run := run?_ofProgress strict [] source Lexed.Progress.start rfl
  cases strict with
  | true => exact run
  | false =>
      have lenient : (pieces source).foldlM
          (Lexed.Progress.takeIn false source) Lexed.Progress.start =
          .ok (Lexed.survey source) := List.foldlM_pure
      rw [List.nil_append, lenient] at run
      exact run

end Steps

end Scanner

end StackCompiler
