import StackCompiler.Token.Basic

/-!
# The pieces of a source text

A source text falls into pieces: blanks, comments, lexemes, and stray characters
that belong to nothing. At each place the longest piece is taken that fits
there, and a character is stray only where nothing else fits. No character is
lost: the pieces of a text, put together again, are the text
(`flatMap_chars_pieces`).
-/

namespace StackCompiler

/-- A part of a source text. -/
inductive Piece where
  /-- White space. -/
  | blank (char : Char)
  /-- Two slashes and the rest of their line. -/
  | comment (text : List Char)
  /-- A word, a number or a punctuation mark. -/
  | lexeme (kind : Token.Kind) (text : List Char)
  /-- A character that begins no other piece. -/
  | stray (char : Char)
  deriving DecidableEq, Repr

namespace Piece

/-- The characters that a piece consists of. -/
def chars : Piece → List Char
  | blank char => [char]
  | comment text => text
  | lexeme _ text => text
  | stray char => [char]

/-! ### Character classes -/

/-- White space: space, tab, line feed, form feed and carriage return. -/
def isBlank (char : Char) : Bool :=
  char == ' ' || char == '\t' || char == '\n' || char == '\x0c' || char == '\r'

/-- The characters that are punctuation marks by themselves. -/
def marks : List Char :=
  ['(', ')', '{', '}', '[', ']', '=', '!', '|', '&', '<', '>', '+', '-', '*',
    '/', ',', ';']

/-- The characters that form a single punctuation mark with an equals
sign behind them. -/
def comparisonStarts : List Char := ['=', '<', '>']

/-! ### Longest matches -/

/-- The digits at the beginning of a text. -/
def digits (text : List Char) : List Char := text.takeWhile Char.isDigit

/-- The sign at the beginning of a text. -/
def sign : List Char → List Char
  | '+' :: _ => ['+']
  | '-' :: _ => ['-']
  | _ => []

/-- The exponent at the beginning of a text: `e` or `E`, a sign or none, and
digits. Where the digits are missing there is no exponent. -/
def exponent : List Char → List Char
  | [] => []
  | mark :: rest =>
    let power := digits (rest.drop (sign rest).length)
    if (mark == 'e' || mark == 'E') && !power.isEmpty then
      mark :: (sign rest ++ power) else []

/-- The fraction at the beginning of a text: a point, digits, and an exponent or
none. Where the digits are missing there is no fraction. -/
def fraction : List Char → List Char
  | '.' :: rest =>
    if (digits rest).isEmpty then []
    else '.' :: (digits rest ++ exponent (rest.drop (digits rest).length))
  | _ => []

/-- A word is a keyword or an identifier. -/
def word (text : List Char) : Piece :=
  if Token.keywords.contains (String.ofList text) then lexeme .keyword text
  else lexeme .identifier text

/-- A number with a fraction is a double, one without is an integer. -/
def number (whole fraction : List Char) : Piece :=
  if fraction.isEmpty then lexeme .integer whole else lexeme .double (whole ++ fraction)

/-- The first piece of a text that begins with `char`. -/
def first (char : Char) (rest : List Char) : Piece :=
  if isBlank char then blank char
  else if char == '/' && rest.head? == some '/' then
      comment (char :: rest.takeWhile (· != '\n'))
  else if char.isAlpha then word (char :: rest.takeWhile Char.isAlphanum)
  else if char.isDigit then
    number (char :: digits rest) (fraction (rest.drop (digits rest).length))
  else if comparisonStarts.contains char && rest.head? == some '=' then
      lexeme .punctuator [char, '=']
  else if marks.contains char then lexeme .punctuator [char]
  else stray char

/-! ### Nothing is lost -/

theorem isPrefix_digits (text : List Char) : digits text <+: text :=
  List.takeWhile_prefix _

theorem isPrefix_sign (text : List Char) : sign text <+: text := by
  unfold sign
  split <;> simp

/-- Two matches in a row are a match. -/
theorem isPrefix_append {first second text : List Char} (initial : first <+: text)
    (next : second <+: text.drop first.length) : first ++ second <+: text := by
  obtain ⟨rest, rfl⟩ := initial
  simpa using next

theorem isPrefix_exponent (text : List Char) : exponent text <+: text := by
  cases text with
  | nil => simp [exponent]
  | cons mark rest =>
    simp only [exponent]
    split
    · exact (List.cons_prefix_cons).2
        ⟨rfl, isPrefix_append (isPrefix_sign rest) (isPrefix_digits _)⟩
    · simp

theorem isPrefix_fraction (text : List Char) : fraction text <+: text := by
  unfold fraction
  split
  · split
    · simp
    · exact (List.cons_prefix_cons).2
        ⟨rfl, isPrefix_append (isPrefix_digits _) (isPrefix_exponent _)⟩
  · simp

@[simp] theorem chars_word (text : List Char) : (word text).chars = text := by
  unfold word
  split <;> rfl

@[simp] theorem chars_number (whole fraction : List Char) :
    (number whole fraction).chars = whole ++ fraction := by
  unfold number
  split
  next noFraction => simp_all [chars]
  next => rfl

/-- The first piece of a text stands at the beginning of the text. -/
theorem isPrefix_first (char : Char) (rest : List Char) :
    (first char rest).chars <+: char :: rest := by
  unfold first
  repeat' split
  · simp [chars]
  · exact (List.cons_prefix_cons).2 ⟨rfl, List.takeWhile_prefix _⟩
  · rw [chars_word]
    exact (List.cons_prefix_cons).2 ⟨rfl, List.takeWhile_prefix _⟩
  · rw [chars_number]
    exact (List.cons_prefix_cons).2
      ⟨rfl, isPrefix_append (isPrefix_digits rest) (isPrefix_fraction _)⟩
  next comparison =>
    cases rest with
    | nil => simp at comparison
    | cons next rest => simp_all [chars]
  · simp [chars]
  · simp [chars]

/-- A piece takes up at least one character. -/
theorem first_length_pos (char : Char) (rest : List Char) :
    0 < (first char rest).chars.length := by
  unfold first
  repeat' split
  · simp [chars]
  · simp [chars]
  · simp [chars_word]
  · simp [chars_number]
  · simp [chars]
  · simp [chars]
  · simp [chars]

/-! ### Splitting a text -/

/-- Continues to split a text behind the pieces `done`, the last of
which comes first. -/
def split (done : List Piece) : List Char → List Piece
  | [] => done.reverse
  | char :: rest =>
    split (first char rest :: done) ((char :: rest).drop (first char rest).chars.length)
  termination_by text => text.length
  decreasing_by
    have := first_length_pos char rest
    simp only [List.length_drop, List.length_cons]
    omega

end Piece

/-- The pieces of a text, in order. -/
def pieces (text : List Char) : List Piece := Piece.split [] text

namespace Piece

theorem split_eq_append (done : List Piece) (text : List Char) :
    split done text = done.reverse ++ pieces text := by
  induction length : text.length using Nat.strongRecOn generalizing done text with
  | ind bound ih =>
    cases text with
    | nil => simp [pieces, split]
    | cons char rest =>
      have shorter :
          ((char :: rest).drop (first char rest).chars.length).length < bound := by
        have := first_length_pos char rest
        simp only [List.length_drop, List.length_cons] at *
        omega
      rw [pieces, split, split, ih _ shorter _ _ rfl, ih _ shorter [_] _ rfl]
      simp

end Piece

@[simp] theorem pieces_nil : pieces [] = [] := by simp [pieces, Piece.split]

theorem pieces_cons (char : Char) (rest : List Char) :
    pieces (char :: rest) =
      Piece.first char rest ::
        pieces ((char :: rest).drop (Piece.first char rest).chars.length) := by
  rw [pieces, Piece.split, Piece.split_eq_append]
  simp

/-- The pieces of a text, put together again, are the text. -/
@[simp] theorem flatMap_chars_pieces (text : List Char) :
    (pieces text).flatMap Piece.chars = text := by
  induction length : text.length using Nat.strongRecOn generalizing text with
  | ind bound ih =>
    cases text with
    | nil => simp
    | cons char rest =>
      have shorter :
          ((char :: rest).drop (Piece.first char rest).chars.length).length <
            bound := by
        have := Piece.first_length_pos char rest
        simp only [List.length_drop, List.length_cons] at *
        omega
      rw [pieces_cons, List.flatMap_cons, ih _ shorter _ rfl]
      obtain ⟨after, eq⟩ := Piece.isPrefix_first char rest
      rw [← eq]
      simp

end StackCompiler
