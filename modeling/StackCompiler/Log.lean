import StackCompiler.Text.Quoted
import StackCompiler.Code.Label

/-!
# The log of a compilation

While it works, the compiler notes what it does. Each note has a severity, by
which a reader can choose how much to see: a severity is shown together with all
those that are more severe.
-/

namespace StackCompiler.Log

/-- How much a note matters, the most severe first. -/
inductive Severity where
  | warning
  | information
  | debugging
  | tracing
  deriving DecidableEq, Repr

namespace Severity

/-- The word that marks notes of a severity. -/
def word : Severity → String
  | warning => "WARN"
  | information => "INFO"
  | debugging => "DEBUG"
  | tracing => "TRACE"

/-- The number of severities that are at least as severe. -/
def rank : Severity → Nat
  | warning => 1
  | information => 2
  | debugging => 3
  | tracing => 4

end Severity

/-- A note that the compiler makes. -/
inductive Event where
  /-- A character of the source was left out. -/
  | skipped (line : Nat) (char : Char)
  /-- The source was split into tokens. -/
  | lexed (tokens lines strays : Nat)
  /-- The tokens were read as a program. -/
  | parsed (declarations statements : Nat)
  /-- The program was lowered to code. -/
  | lowered (instructions labels : Nat)
  /-- A label received its final number. -/
  | renumbered (old new : Label)
  deriving DecidableEq, Repr

namespace Event

/-- The severity of a note. -/
def severity : Event → Severity
  | skipped .. => .warning
  | lexed .. => .debugging
  | parsed .. => .debugging
  | lowered .. => .debugging
  | renumbered .. => .tracing

/-- The wording of a note. -/
def message : Event → String
  | skipped line char =>
      s!"line {line}: skipping unrecognised character {Text.quote char}"
  | lexed tokens lines strays =>
    s!"lexed {tokens} tokens over {lines} lines, {strays} characters skipped"
  | parsed declarations statements =>
    s!"parsed {declarations} declarations and {statements} top-level statements"
  | lowered instructions labels =>
    s!"emitted {instructions} instructions, {labels} labels allocated"
  | renumbered old new => s!"{old.render} -> {new.render}"

end Event

/-- The notes whose severity has at most the given rank, in order. -/
def upTo (rank : Nat) (events : List Event) : List Event :=
  events.filter fun event => event.severity.rank ≤ rank

end StackCompiler.Log
