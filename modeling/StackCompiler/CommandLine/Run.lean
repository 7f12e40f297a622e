import StackCompiler.CommandLine.Arguments
import StackCompiler.Compilation

/-!
# Running the compiler

A run reads the source, compiles it, shows the log, and delivers the program.
Nothing is delivered before everything else has succeeded. How files and streams
are reached is left to a `Host`.
-/

namespace StackCompiler.CommandLine

/-- The ways in which a run can end. -/
inductive Status where
  | success
  | failure
  | misuse
  deriving DecidableEq, Repr

/-- The exit code of a run. -/
def Status.code : Status → Nat
  | success => 0
  | failure => 1
  | misuse => 2

/-- Access to files and streams. What can fail tells the reason. -/
structure Host (m : Type → Type) where
  readFile (path : String) : m (Except String ByteArray)
  readInput : m (Except String ByteArray)
  writeFile (path : String) (content : String) : m (Except String PUnit)
  writeOutput (text : String) : m PUnit
  writeErrors (text : String) : m PUnit

namespace Invocation

/-- The path of the source, unless it is standard input. -/
def sourcePath? (invocation : Invocation) : Option String :=
  invocation.input.filter (· != "-")

/-- The name of the source in messages. -/
def sourceName (invocation : Invocation) : String :=
  invocation.sourcePath?.getD "<stdin>"

/-- The notes that are shown: warnings if nothing else is asked for, and one
more severity for each time that more is asked for. -/
def visible (invocation : Invocation) (events : List Log.Event) : List Log.Event :=
  if invocation.quiet then [] else Log.upTo (1 + invocation.verbosity) events

/-- The text of the notes that are shown. -/
def logText (invocation : Invocation) (events : List Log.Event) : String :=
  String.join ((invocation.visible events).map fun event =>
    s!"{event.severity.word} {event.message}\n")

end Invocation

/-- The text that a file or stream holds. -/
def decode (content : ByteArray) : Except String String :=
  match String.fromUTF8? content with
  | some text => .ok text
  | none => .error "stream did not contain valid UTF-8"

variable {m : Type → Type} [Monad m]

/-- Reads the source. -/
def readSource (host : Host m) (invocation : Invocation) :
    m (Except String String) := do
  let content ←
    match invocation.sourcePath? with
    | some path => host.readFile path
    | none => host.readInput
  return content.bind decode

/-- Delivers the text of a program. -/
def deliver (host : Host m) (invocation : Invocation) (text : String) : m Status := do
  match invocation.output with
  | none =>
    host.writeOutput text
    return .success
  | some path =>
    match ← host.writeFile path text with
    | .ok _ => return .success
    | .error reason =>
      host.writeErrors s!"{path}: {reason}\n"
      return .failure

/-- Compiles as an invocation asks. -/
def run (host : Host m) (invocation : Invocation) : m Status := do
  match ← readSource host invocation with
  | .error reason =>
    host.writeErrors s!"{invocation.sourceName}: {reason}\n"
    return .failure
  | .ok source =>
    let compiled := compile source invocation.strict
    host.writeErrors (invocation.logText compiled.events)
    match compiled.outcome with
    | .error diagnostic =>
      host.writeErrors (diagnostic.message ++ "\n")
      return .failure
    | .ok result => deliver host invocation result.program.render

/-- The version of the compiler. -/
def versionText : String := "stackgen 0.1.0\n"

/-- How the compiler is used. -/
def helpLines : List String :=
  ["Compile a program into stack-machine pseudo-assembly",
    "",
    "Usage: stackgen [OPTIONS] [INPUT]",
    "",
    "Arguments:",
    "  [INPUT]  Source file; reads stdin when omitted or `-`",
    "",
    "Options:",
    "  -o, --output <OUTPUT>  Write the program here instead of stdout",
    "      --strict           Reject unrecognised characters instead of skipping them",
    "  -v, --verbose...       Increase log verbosity (repeatable)",
    "  -q, --quiet            Silence all logging",
    "  -h, --help             Print help",
    "  -V, --version          Print version"]

/-- Does what the arguments ask for, by whatever rules they are read. -/
def executeBy (readArguments : List String → Except UsageFault Request) (host : Host m)
    (arguments : List String) : m Status := do
  match readArguments arguments with
  | .ok (.compile invocation) => run host invocation
  | .ok .version =>
    host.writeOutput versionText
    return .success
  | .ok .help =>
    host.writeOutput (String.join (helpLines.map (· ++ "\n")))
    return .success
  | .error fault =>
    host.writeErrors s!"error: {fault.message}\n"
    return .misuse

/-- Does what the arguments ask for. -/
def execute (host : Host m) (arguments : List String) : m Status :=
  executeBy Request.ofArguments host arguments

end StackCompiler.CommandLine
