import StackCompiler.Proofs.Faults
import StackCompiler.Proofs.Log.Stepwise
import StackCompiler.Proofs.Lowering.Resumption

/-!
# The log as a certificate

What the log says of a compilation can be checked against its result
(`log_of_compile`). The notes on labels tell of every label that was taken,
once, which number it has in the end, so renaming the labels of the code that
the program was lowered to as the log says gives the code of the program. The
warnings tell what was skipped. A stage that fails leaves nothing in the log,
apart from the characters skipped before, and neither do those behind it.
-/

namespace StackCompiler

/-- The messages of a severity in a log, in order. -/
def Log.messages (severity : Severity) (events : List Event) : List String :=
  (events.filter (·.severity = severity)).map Event.message

/-! ### The notes of the stages -/

namespace Lexed

theorem read_of_ok {source : List Char} {strict : Bool} {lexed : Lexed}
    (reads : (read source strict).outcome = .ok lexed) :
    read source strict = read source false := by
  obtain rfl := eq_ofSource_of_read reads
  cases strict with
  | false => rfl
  | true => exact read_strict_of_skipped_eq_nil (outcome_read_eq_ok_iff.1 reads rfl)

/-- The notes on the tokens of a source. -/
def notes (lexed : Lexed) (lines : Nat) : List Log.Event :=
  lexed.skipped.map skipNote ++ [.lexed lexed.tokens.length lines lexed.skipped.length]

theorem events_read {source : List Char} {strict : Bool} {lexed : Lexed}
    (reads : (read source strict).outcome = .ok lexed) :
    (read source strict).events = lexed.notes (source.count '\n' + 1) := by
  rw [read_of_ok reads, read_lenient, eq_ofSource_of_read reads, ← line_survey]
  rfl

/-- Where the tokens of a source cannot be found, there is nothing in the log. -/
theorem events_read_of_error {source : List Char} {strict : Bool}
    {diagnostic : Diagnostic}
    (fails : (read source strict).outcome = .error diagnostic) :
    (read source strict).events = [] := by
  cases strict with
  | false => contradiction
  | true =>
      cases found : (ofSource source).skipped with
      | nil =>
          rw [read_strict_of_skipped_eq_nil found] at fails
          contradiction
      | cons first later =>
          rw [read_strict_of_skipped_eq_cons found]
          rfl

end Lexed

/-- Reading the tokens of a source makes no notes of its own. -/
theorem events_readUnit {source : String} {strict : Bool} {lexed : Lexed}
    (reads : (Lexed.read source.toList strict).outcome = .ok lexed) :
    (readUnit source strict).events = lexed.notes (source.toList.count '\n' + 1) := by
  have silent : (Traced.ofExcept (CompilationUnit.parse lexed.tokens source.toList) >>=
      fun unit => pure (unit, lexed.skipped)).events = [] := by
    cases CompilationUnit.parse lexed.tokens source.toList <;> rfl
  rw [readUnit, Traced.bind_of_ok reads, silent, List.append_nil,
    Lexed.events_read reads]

namespace Canonical

/-- The notes on labels that are numbered from one. -/
def notes (labels : List Label) : List Log.Event :=
  (labels.zipIdx 1).map fun (label, number) => .renumbered label ⟨number⟩

theorem events_canonicalize {code : Code} (unique : (Code.definitions code).Nodup) :
    (canonicalize code).events = notes (Code.labels code).eraseDups := by
  obtain ⟨after, surveyed, covers⟩ := Survey.covers_start.extend unique
  rw [List.nil_append] at covers
  rw [canonicalize, survey, surveyed, notes, ← covers.mentioned]
  rfl

end Canonical

/-- The log of a source that is read as a program. -/
theorem events_compile {source : String} {strict : Bool} {lexed : Lexed}
    {unit : CompilationUnit}
    (reads : (Lexed.read source.toList strict).outcome = .ok lexed)
    (parses : CompilationUnit.parse lexed.tokens source.toList = .ok unit) :
    (compile source strict).events =
      lexed.notes (source.toList.count '\n' + 1) ++
        .parsed unit.declarations.length unit.body.length ::
        .lowered unit.rawCode.length (Stmt.labelCountAll unit.body) ::
        Canonical.notes (Code.labels unit.rawCode).eraseDups := by
  have readsUnit : (readUnit source strict).outcome = .ok (unit, lexed.skipped) := by
    rw [outcome_readUnit, reads]
    exact congrArg (Except.map _) parses
  rw [compile, Traced.bind_of_ok readsUnit, events_readUnit reads]
  simp only [unit.run_lower, Traced.bind_note,
    Traced.bind_of_ok unit.outcome_canonicalize,
    Canonical.events_canonicalize unit.nodup_definitions_rawCode]
  rw [Traced.pure_events, List.append_nil]
  rfl

/-! ### The messages of each severity -/

namespace Log

theorem messages_append (severity : Severity) (first second : List Event) :
    messages severity (first ++ second) =
      messages severity first ++ messages severity second := by
  rw [messages, List.filter_append, List.map_append]
  rfl

theorem messages_cons (severity : Severity) (first : Event) (rest : List Event) :
    messages severity (first :: rest) =
      if first.severity = severity then first.message :: messages severity rest
      else messages severity rest := by
  rw [messages, List.filter_cons]
  split <;> rename_i same <;> simp only [decide_eq_true_eq] at same
  · rw [if_pos same]
    rfl
  · rw [if_neg same]
    rfl

/-- Notes of one severity are all shown for this severity, and none of them
for another one. -/
theorem messages_map {α : Type} {shown severity : Severity} {note : α → Event}
    (same : ∀ item, (note item).severity = shown) (items : List α) :
    messages severity (items.map note) =
      if shown = severity then items.map fun item => (note item).message else [] := by
  induction items with
  | nil => simp [messages]
  | cons item rest ih =>
      rw [List.map_cons, messages_cons, same, ih]
      split <;> rfl

theorem messages_skipNotes (severity : Severity) (skipped : List SkippedChar) :
    messages severity (skipped.map Lexed.skipNote) =
      if .warning = severity then
        skipped.map fun skipped => (Lexed.skipNote skipped).message
      else [] := by
  apply messages_map
  intro skipped
  rfl

theorem messages_notes (severity : Severity) (labels : List Label) :
    messages severity (Canonical.notes labels) =
      if .tracing = severity then
        (labels.zipIdx 1).map fun (old, new) => (Event.renumbered old ⟨new⟩).message
      else [] := by
  have traces : ∀ numbered : Label × Nat,
      (Event.renumbered numbered.1 ⟨numbered.2⟩).severity = .tracing :=
    fun _ => rfl
  exact messages_map traces (labels.zipIdx 1)

theorem message_renumbered (old new : Nat) :
    (Event.renumbered ⟨old⟩ ⟨new⟩).message = s!"L{old} -> L{new}" := by
  have arrow : " -> L" = " -> " ++ "L" := rfl
  simp only [Event.message, Label.render, arrow, toString, String.append_assoc]

end Log

/-! ### Compilations that succeed -/

namespace CompilationUnit

variable (unit : CompilationUnit)

/-- The numbers of the labels of a program, as they were handed out, in the
order in which the labels are mentioned. -/
def handedOut : List Nat := (Code.labels unit.rawCode).eraseDups.map Label.number

theorem perm_handedOut :
    unit.handedOut.Perm (List.range (Stmt.labelCountAll unit.body)) := by
  have numbers := unit.ownsLabels_rawCode.eraseDups_labels_perm.map Label.number
  rwa [List.map_map, ← List.range_eq_range', Function.comp_def, List.map_id'] at numbers

/-- Renaming each label as the log says gives the code of the program. -/
theorem relabel_rawCode_eq_code {rename : Label → Label}
    (follows : ∀ place (inside : place < unit.handedOut.length),
      rename ⟨unit.handedOut[place]⟩ = ⟨place + 1⟩) :
    Code.relabel rename unit.rawCode = unit.code := by
  apply Code.relabel_congr
  intro label mentioned
  have listed := List.idxOf_lt_length_of_mem (List.mem_eraseDups.2 mentioned)
  have renamed := follows ((Code.labels unit.rawCode).eraseDups.idxOf label)
    (by rwa [handedOut, List.length_map])
  simp only [handedOut, List.getElem_map, List.getElem_idxOf] at renamed
  exact renamed

theorem labelCount_code : Code.labelCount unit.code = Stmt.labelCountAll unit.body := by
  rw [code, Code.labelCount_canonical, unit.ownsLabels_rawCode.labelCount_eq]

end CompilationUnit

section

variable {source : String} {strict : Bool} {lexed : Lexed} {unit : CompilationUnit}
  (reads : (Lexed.read source.toList strict).outcome = .ok lexed)
  (parses : CompilationUnit.parse lexed.tokens source.toList = .ok unit)

include reads parses

/-- What the log of a program shows of each severity. -/
theorem messages_compile (severity : Log.Severity) :
    Log.messages severity (compile source strict).events =
      match severity with
      | .warning => lexed.skipped.map fun skipped => (Lexed.skipNote skipped).message
      | .information => []
      | .debugging =>
        [(Log.Event.lexed lexed.tokens.length
            (source.toList.count '\n' + 1) lexed.skipped.length).message,
          (Log.Event.parsed unit.declarations.length unit.body.length).message,
          (Log.Event.lowered unit.rawCode.length
            (Stmt.labelCountAll unit.body)).message]
      | .tracing =>
          (unit.handedOut.zipIdx 1).map fun (old, new) =>
            (Log.Event.renumbered ⟨old⟩ ⟨new⟩).message := by
  rw [events_compile reads parses, Lexed.notes, List.append_assoc, Log.messages_append,
    Log.messages_skipNotes]
  simp only [List.singleton_append, Log.messages_cons, Log.messages_notes]
  cases severity with
  | warning => exact List.append_nil _
  | information => rfl
  | debugging => rfl
  | tracing => rw [CompilationUnit.handedOut, List.zipIdx_map, List.map_map]; rfl

end

/-- The log of a source that cannot be read as a program, once it has been
split into tokens. -/
theorem events_compile_of_error {source : String} {strict : Bool} {lexed : Lexed}
    {diagnostic : Diagnostic}
    (reads : (Lexed.read source.toList strict).outcome = .ok lexed)
    (fails : CompilationUnit.parse lexed.tokens source.toList = .error diagnostic) :
    (compile source strict).events = lexed.notes (source.toList.count '\n' + 1) := by
  have failsToo : (readUnit source strict).outcome = .error diagnostic := by
    rw [outcome_readUnit, reads]
    exact congrArg (Except.map _) fails
  rw [compile, Traced.bind_of_error failsToo, events_readUnit reads]

/-- The log of a source that cannot be split into tokens. -/
theorem events_compile_of_read_error {source : String} {strict : Bool}
    {diagnostic : Diagnostic}
    (fails : (Lexed.read source.toList strict).outcome = .error diagnostic) :
    (compile source strict).events = [] := by
  have failsToo : (readUnit source strict).outcome = .error diagnostic := by
    rw [outcome_readUnit, fails]
    rfl
  rw [compile, Traced.bind_of_error failsToo, readUnit, Traced.bind_of_error fails,
    Lexed.events_read_of_error fails]

/-- The notes on a source that compiles, checked against what its stages
have made. The labels were handed out with the numbers `olds`, in the
order of the notes. -/
structure Certifies (log : List Log.Event) (source : String) (lexed : Lexed)
    (unit : CompilationUnit) (lowered : Code × LabelSupply) (olds : List Nat)
    (compiled : Compiled) : Prop where
  summed : Log.messages .debugging log =
    let lines := source.toList.count '\n' + 1
    let tokens := lexed.tokens.length
    let skipped := lexed.skipped.length
    let declarations := unit.declarations.length
    let statements := unit.body.length
    let instructions := lowered.1.length
    [s!"lexed {tokens} tokens over {lines} lines, {skipped} characters skipped",
      s!"parsed {declarations} declarations and {statements} top-level statements",
      s!"emitted {instructions} instructions, {lowered.2.allocated} labels allocated"]
  traced : Log.messages .tracing log =
    (olds.zipIdx 1).map fun (old, new) => s!"L{old} -> L{new}"
  length : olds.length = lowered.2.allocated
  labelCount : Code.labelCount compiled.program.instructions = lowered.2.allocated
  /-- Every label that was handed out is in the notes, once. -/
  perm : olds.Perm (List.range lowered.2.allocated)
  /-- With its labels renamed as noted, what was lowered is the code of the program. -/
  renamed : ∀ rename : Label → Label,
    (∀ place (inside : place < olds.length), rename ⟨olds[place]⟩ = ⟨place + 1⟩) →
      Code.relabel rename lowered.1 = compiled.program.instructions
  warned : Log.messages .warning log = compiled.skipped.map fun skipped =>
    s!"line {skipped.line}: skipping unrecognised character {Text.quote skipped.char}"

/-- What the log of a compilation tells. -/
structure Faithful (log : List Log.Event) (source : String) (strict : Bool) : Prop where
  compiles : ∀ compiled, (compile source strict).outcome = .ok compiled →
    ∃ lexed unit olds,
    (Lexed.read source.toList strict).outcome = .ok lexed ∧
    CompilationUnit.parse lexed.tokens source.toList = .ok unit ∧
    Certifies log source lexed unit (unit.lower.run LabelSupply.fresh) olds compiled
  /-- Nothing is noted of a source that is not split into tokens. -/
  unread : ∀ diagnostic,
    (Lexed.read source.toList strict).outcome = .error diagnostic → log = []
  /-- Only the tokens are summed up of a source that does not form a program. -/
  unformed : ∀ lexed diagnostic, (Lexed.read source.toList strict).outcome = .ok lexed →
    CompilationUnit.parse lexed.tokens source.toList = .error diagnostic →
    log = lexed.skipped.map (fun skipped => .skipped skipped.line skipped.char) ++
      [.lexed lexed.tokens.length (source.toList.count '\n' + 1) lexed.skipped.length]

/-- The notes of a compilation are made in the steps that they are about, and
they certify its result. -/
theorem log_of_compile (source : String) (strict : Bool) :
    compile source strict = compileNoting source strict ∧
      Faithful (compile source strict).events source strict := by
  refine ⟨(compileNoting_eq source strict).symm, ?_⟩
  constructor
  case compiles =>
    intro compiled compiles
    obtain ⟨reads, unit, parses, rfl⟩ := ofTokens?_of_compile compiles
    have parses : CompilationUnit.parse _ source.toList = .ok unit :=
      CompilationUnit.parse_eq_ok_iff.2 parses
    refine ⟨_, unit, unit.handedOut, reads, parses, ?_⟩
    have permuted := unit.perm_handedOut
    rw [unit.run_lower]
    constructor
    case summed => exact messages_compile reads parses .debugging
    case traced =>
      rw [messages_compile reads parses]
      simp only [Log.message_renumbered]
    case length => rw [permuted.length_eq, List.length_range]
    case labelCount => exact unit.labelCount_code
    case perm => exact permuted
    case renamed =>
      intro rename follows
      exact unit.relabel_rawCode_eq_code follows
    case warned => exact messages_compile reads parses .warning
  case unread =>
    intro diagnostic fails
    exact events_compile_of_read_error fails
  case unformed =>
    intro lexed diagnostic reads fails
    exact events_compile_of_error reads fails

set_option maxRecDepth 4096 in
/-- The labels of the loop are handed out last, and mentioned first. -/
theorem log_of_compile_nested :
    let log := (compile "while(a)\nif(b)@print a;" false).events
    let code : Code := [.label ⟨1⟩, .eval "a", .gotoFalse ⟨2⟩, .eval "b",
      .gotoFalse ⟨3⟩, .print "a", .label ⟨3⟩, .goto ⟨1⟩, .label ⟨2⟩]
    (compile "while(a)\nif(b)@print a;" false).outcome = .ok ⟨⟨code⟩, [⟨'@', 2, 14⟩]⟩ ∧
      log = [.skipped 2 '@', .lexed 12 2 1, .parsed 0 1, .lowered 9 3,
          .renumbered ⟨1⟩ ⟨1⟩, .renumbered ⟨2⟩ ⟨2⟩, .renumbered ⟨0⟩ ⟨3⟩] ∧
      Log.messages .warning log = ["line 2: skipping unrecognised character '@'"] ∧
      ∃ olds : List Nat, Log.messages .tracing log =
        (olds.zipIdx 1).map (fun (old, new) => s!"L{old} -> L{new}") ∧
        olds.Perm [0, 1, 2] := by
  intro log code
  have compiles : (compile "while(a)\nif(b)@print a;" false).outcome =
      .ok ⟨⟨code⟩, [⟨'@', 2, 14⟩]⟩ := by decide +kernel
  have noted : (compile "while(a)\nif(b)@print a;" false).events =
      [.skipped 2 '@', .lexed 12 2 1, .parsed 0 1, .lowered 9 3, .renumbered ⟨1⟩ ⟨1⟩,
          .renumbered ⟨2⟩ ⟨2⟩, .renumbered ⟨0⟩ ⟨3⟩] := by decide +kernel
  obtain ⟨_, faithful⟩ := log_of_compile "while(a)\nif(b)@print a;" false
  obtain ⟨_, _, olds, _, _, certifies⟩ := faithful.compiles _ compiles
  have permuted := certifies.perm
  have three : Code.labelCount code = 3 := by decide
  rw [← certifies.labelCount, three] at permuted
  exact ⟨compiles, noted, certifies.warned, olds, certifies.traced, permuted⟩

end StackCompiler
