import StackCompiler.Text.Place

/-!
# Anchors

An anchor shows a reader where in a text something happened: line and column,
both counted from one, the line itself and a caret below the place. Columns
count characters, whatever their width.
-/

namespace StackCompiler.Text

/-- A place in a text as a reader sees it. -/
structure Anchor where
  /-- The number of the line, counted from one. -/
  line : Nat
  /-- The number of the character in its line, counted from one. -/
  column : Nat
  /-- The whole line, without the carriage returns at its end. -/
  sourceLine : String
  deriving DecidableEq, Repr

/-- A line without the carriage returns at its end. -/
def trimReturns (line : List Char) : List Char :=
  (line.reverse.dropWhile (· == '\r')).reverse

/-- The part of the current line that lies behind a place, the nearest
character first. -/
def Place.lineBehind (place : Place) : List Char := place.behind.takeWhile (· != '\n')

/-- The part of the current line that lies ahead of a place. -/
def Place.lineAhead (place : Place) : List Char := place.ahead.takeWhile (· != '\n')

/-- What a reader sees at a place. -/
def Place.anchor (place : Place) : Anchor where
  line := place.behind.count '\n' + 1
  column := place.lineBehind.length + 1
  sourceLine :=
    String.ofList (trimReturns (place.lineBehind.reverse ++ place.lineAhead))

namespace Anchor

/-- The anchor of a byte offset. An offset beyond the end stands for the end,
and one inside a character for the beginning of that character. -/
def ofOffset (source : List Char) (offset : Nat) : Anchor :=
  (Place.ofOffset source offset).anchor

/-- The caret, moved below the column of the anchor. -/
def marker (anchor : Anchor) : String :=
  String.ofList (List.replicate (anchor.column - 1) ' ' ++ ['^'])

/-- A message with the place it is about. -/
def display (anchor : Anchor) (message : String) : String :=
  s!"{anchor.line}:{anchor.column}: {message}\n{anchor.sourceLine}\n{anchor.marker}"

end Anchor

end StackCompiler.Text
