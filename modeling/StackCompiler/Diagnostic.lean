import StackCompiler.Text.Anchor
import StackCompiler.Code.Label

/-!
# Diagnostics

What can be wrong with a program, and the wording in which it is reported.
Faults of the source text are anchored to a place in it. Faults of the labels
concern code; code that was lowered from a program has none of them.
-/

namespace StackCompiler

open Text (Anchor)

/-- What is wrong with a program. -/
inductive Diagnostic where
  /-- The tokens of the source do not form a program. -/
  | malformed (anchor : Anchor) (message : String)
  /-- A character of the source belongs to no token, and that was not
  to be tolerated. -/
  | invalidCharacter (anchor : Anchor) (char : Char)
  /-- A jump names a label that no instruction defines. -/
  | undefinedLabel (label : Label)
  /-- Two instructions define the same label. -/
  | duplicateLabel (label : Label)
  deriving DecidableEq, Repr

namespace Diagnostic

/-- A fault of the source at a byte offset. -/
def malformedAt (source : List Char) (loc : Nat) (message : String) : Diagnostic :=
  malformed (Anchor.ofOffset source loc) message

/-- A character at a byte offset of the source that belongs to no token. -/
def invalidCharacterAt (source : List Char) (loc : Nat) (char : Char) : Diagnostic :=
  invalidCharacter (Anchor.ofOffset source loc) char

/-- The place in the source that a diagnostic is about, where there is one. -/
def anchor? : Diagnostic → Option Anchor
  | malformed anchor _ => some anchor
  | invalidCharacter anchor _ => some anchor
  | undefinedLabel _ => none
  | duplicateLabel _ => none

/-- The line of the source that a diagnostic is about, where there is one. -/
def line? (diagnostic : Diagnostic) : Option Nat := diagnostic.anchor?.map (·.line)

/-- The wording of a diagnostic. -/
def message : Diagnostic → String
  | malformed anchor message => anchor.display message
  | invalidCharacter anchor char =>
    anchor.display ("invalid character '" ++ char.toString ++ "'")
  | undefinedLabel label =>
      s!"internal error: jump to {label.render} which is never defined"
  | duplicateLabel label => s!"internal error: {label.render} is defined more than once"

end Diagnostic

end StackCompiler
