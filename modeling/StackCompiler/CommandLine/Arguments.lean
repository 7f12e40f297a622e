/-!
# Arguments

The arguments of the command say where the source comes from, where the program
goes, whether stray characters are tolerated, and how much of the log is shown.
They are read from left to right, and what is decided by an argument does not
depend on those behind it.
-/

namespace StackCompiler.CommandLine

/-- What a run of the compiler is asked to do. -/
structure Invocation where
  /-- The path of the source. Standard input is read if there is none, or if it
  is a single dash. -/
  input : Option String
  /-- The path that the program is written to. It goes to standard output
  if there is none. -/
  output : Option String
  /-- Whether stray characters are errors. -/
  strict : Bool
  /-- How often more of the log was asked for. -/
  verbosity : Nat
  /-- Whether nothing of the log is to be seen. -/
  quiet : Bool
  deriving DecidableEq, Repr

/-- What the arguments ask for. -/
inductive Request where
  | compile (invocation : Invocation)
  | version
  | help
  deriving DecidableEq, Repr

/-- Why arguments are not accepted. -/
inductive UsageFault where
  | unknownOption (option : String)
  | missingValue (option : String)
  | unwantedValue (option : String)
  | repeated (option : String)
  | secondInput (argument : String)
  deriving DecidableEq, Repr

/-- The wording of a fault. -/
def UsageFault.message : UsageFault → String
  | .unknownOption option => s!"unknown option {option}"
  | .missingValue option => s!"{option} needs a value"
  | .unwantedValue option => s!"{option} takes no value"
  | .repeated option => s!"{option} can be given only once"
  | .secondInput argument => s!"unexpected argument {argument}"

/-- Where reading stands after an argument. -/
inductive Progress where
  /-- The argument is complete. -/
  | complete (invocation : Invocation)
  /-- The next argument is the path of the output. -/
  | outputFollows (invocation : Invocation)
  /-- The arguments that follow do not matter. -/
  | settled (request : Request)
  deriving DecidableEq, Repr

namespace Invocation

/-- What is done without arguments. -/
def default : Invocation := ⟨none, none, false, 0, false⟩

/-- Takes in the path of the source, which must not be empty. -/
def setInput (invocation : Invocation) (path : String) : Except UsageFault Invocation :=
  if invocation.input.isSome then .error (.secondInput path)
  else if path.isEmpty then .error (.missingValue "INPUT")
  else .ok { invocation with input := some path }

/-- Takes in the path of the output, which must not be empty. -/
def setOutput (invocation : Invocation) (path : String) :
    Except UsageFault Invocation :=
  if invocation.output.isSome then .error (.repeated "--output")
  else if path.isEmpty then .error (.missingValue "--output")
  else .ok { invocation with output := some path }

/-- Makes stray characters errors. -/
def setStrict (invocation : Invocation) : Except UsageFault Invocation :=
  if invocation.strict then .error (.repeated "--strict")
  else .ok { invocation with strict := true }

/-- Silences the log. -/
def setQuiet (invocation : Invocation) : Except UsageFault Invocation :=
  if invocation.quiet then .error (.repeated "--quiet")
  else .ok { invocation with quiet := true }

/-- Shows more of the log. -/
def raiseVerbosity (invocation : Invocation) : Invocation :=
  { invocation with verbosity := invocation.verbosity + 1 }

/-- Takes in short options that share a dash. The path of the output is what
follows its letter, behind an equals sign or not, or else the next argument. -/
def shortOptions (invocation : Invocation) : List Char → Except UsageFault Progress
  | [] => .ok (.complete invocation)
  | ['o'] => .ok (.outputFollows invocation)
  | 'o' :: '=' :: path => .complete <$> invocation.setOutput (String.ofList path)
  | 'o' :: path => .complete <$> invocation.setOutput (String.ofList path)
  | 'v' :: rest => invocation.raiseVerbosity.shortOptions rest
  | 'q' :: rest => do (← invocation.setQuiet).shortOptions rest
  | 'V' :: _ => .ok (.settled .version)
  | 'h' :: _ => .ok (.settled .help)
  | option :: _ => .error (.unknownOption ("-" ++ option.toString))

/-- Takes in a long option, and the value given behind an equals sign,
if there is one. -/
def longOption (invocation : Invocation) (name : String) (value? : Option String) :
    Except UsageFault Progress :=
  match name, value? with
  | "output", none => .ok (.outputFollows invocation)
  | "output", some path => .complete <$> invocation.setOutput path
  | "strict", none => .complete <$> invocation.setStrict
  | "quiet", none => .complete <$> invocation.setQuiet
  | "verbose", none => .ok (.complete invocation.raiseVerbosity)
  | "version", none => .ok (.settled .version)
  | "help", none => .ok (.settled .help)
  | name, some _ =>
    if ["strict", "quiet", "verbose", "version", "help"].contains name then
      .error (.unwantedValue ("--" ++ name))
    else .error (.unknownOption ("--" ++ name))
  | name, none => .error (.unknownOption ("--" ++ name))

/-- The value behind the equals sign of a long option, if there is one. -/
def valueOf? : List Char → Option String
  | [] => none
  | _ :: value => some (String.ofList value)

/-- Takes in an argument: a long option, short options, or the path of the
source. A single dash is a path. -/
def argument (invocation : Invocation) (text : String) : Except UsageFault Progress :=
  match text.toList with
  | '-' :: '-' :: option =>
    invocation.longOption (String.ofList (option.takeWhile (· != '=')))
      (valueOf? (option.dropWhile (· != '=')))
  | '-' :: option :: options => invocation.shortOptions (option :: options)
  | _ => .complete <$> invocation.setInput text

/-- Whether an argument can be the value of the option before it. -/
def isValue (text : String) : Bool := text == "-" || text.toList.head? != some '-'

/-- Takes in arguments that are no options. -/
def operands (invocation : Invocation) : List String → Except UsageFault Request
  | [] => .ok (.compile invocation)
  | path :: rest => do (← invocation.setInput path).operands rest

/-- Takes in arguments. Behind a double dash there are no options. -/
def extend (invocation : Invocation) : List String → Except UsageFault Request
  | [] => .ok (.compile invocation)
  | text :: rest =>
    if text == "--" then invocation.operands rest
    else
      match invocation.argument text, rest with
      | .error fault, _ => .error fault
      | .ok (.settled request), _ => .ok request
      | .ok (.complete invocation), rest => invocation.extend rest
      | .ok (.outputFollows _), [] => .error (.missingValue "--output")
      | .ok (.outputFollows invocation), path :: rest =>
        if isValue path then do (← invocation.setOutput path).extend rest
        else .error (.missingValue "--output")

end Invocation

/-- What arguments ask for. -/
def Request.ofArguments (arguments : List String) : Except UsageFault Request :=
  Invocation.default.extend arguments

end StackCompiler.CommandLine
