import StackCompiler.Text.Place
import StackCompiler.Token.Piece
import StackCompiler.Traced

/-!
# The tokens of a source text

The lexemes of a source become its tokens, each with its place. Stray
characters are skipped and listed, or, in strict mode, the first of them makes
the source unacceptable.
-/

namespace StackCompiler

/-- A character of the source that belongs to no token and was left out. -/
structure SkippedChar where
  char : Char
  line : Nat
  loc : Nat
  deriving DecidableEq, Repr

/-- The tokens of a source, closed by one of the kind `endOfInput`, and the
characters left out. -/
structure Lexed where
  tokens : List Token
  skipped : List SkippedChar
  deriving DecidableEq, Repr

namespace Lexed

/-- What has been found so far. The lists hold the latest entry first. -/
structure Progress where
  /-- The byte offset of the next piece. -/
  loc : Nat
  /-- The line of the next piece. -/
  line : Nat
  tokens : List Token
  skipped : List SkippedChar
  deriving DecidableEq, Repr

namespace Progress

/-- Nothing has been found yet. -/
def start : Progress := ⟨0, 1, [], []⟩

/-- Goes on behind a piece, on the next line if the piece ends one. -/
def pass (progress : Progress) (piece : Piece) : Progress :=
  { progress with
    loc := progress.loc + Text.byteLength piece.chars
    line := if piece = .blank '\n' then progress.line + 1 else progress.line }

/-- Takes in the next piece. -/
def step (progress : Progress) (piece : Piece) : Progress :=
  match piece with
  | .lexeme kind text =>
    { progress.pass piece with
      tokens :=
        ⟨kind, String.ofList text, progress.loc, progress.line⟩ :: progress.tokens }
  | .stray char =>
    { progress.pass piece with
      skipped := ⟨char, progress.line, progress.loc⟩ :: progress.skipped }
  | _ => progress.pass piece

/-- Takes in the next piece of the source, which must not be a stray character. -/
def stepStrictly (source : List Char) (progress : Progress) (piece : Piece) :
    Except Diagnostic Progress :=
  match piece with
  | .stray char => .error (.invalidCharacterAt source progress.loc char)
  | _ => .ok (progress.step piece)

/-- Closes the list of tokens. -/
def finish (progress : Progress) : Lexed where
  tokens := (Token.endAt progress.loc progress.line :: progress.tokens).reverse
  skipped := progress.skipped.reverse

/-- The notes to be made at the end: every character left out, and then a summary. -/
def events (progress : Progress) : List Log.Event :=
  progress.finish.skipped.map (fun skipped => .skipped skipped.line skipped.char) ++
    [.lexed progress.finish.tokens.length progress.line progress.finish.skipped.length]

end Progress

/-- What is found in the whole source. -/
def survey (source : List Char) : Progress :=
  (pieces source).foldl Progress.step Progress.start

/-- What is found in a source without stray characters. -/
def surveyStrictly (source : List Char) : Except Diagnostic Progress :=
  (pieces source).foldlM (Progress.stepStrictly source) Progress.start

/-- The tokens of a source and the characters that belong to none. -/
def ofSource (source : List Char) : Lexed := (survey source).finish

/-- Splits a source into tokens. In strict mode the first stray
character is an error. -/
def read (source : List Char) (strict : Bool) : Traced Lexed := do
  let progress ← Traced.ofExcept (if strict then surveyStrictly source
      else .ok (survey source))
  Traced.note progress.events
  return progress.finish

end Lexed

end StackCompiler
