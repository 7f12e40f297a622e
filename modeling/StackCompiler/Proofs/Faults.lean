import StackCompiler.Proofs.Compiling
import StackCompiler.Proofs.Reading.Sources

/-!
# Faults of a source

Where a source does not compile, there is a place in the source that is at fault
(`isSome_anchor?_of_compile`). So it never is a label.
-/

namespace StackCompiler

/-- A source that has been split into tokens compiles to the code of the program
that the tokens form, or the failure to read one is reported. -/
theorem outcome_compile_of_read {source : String} {strict : Bool} {lexed : Lexed}
    (reads : (Lexed.read source.toList strict).outcome = .ok lexed) :
    (compile source strict).outcome =
      ((CompilationUnit.ofTokens? lexed.tokens).mapError
        (Failure.diagnose source.toList)).map
        fun unit => ⟨⟨unit.code⟩, lexed.skipped⟩ := by
  rw [outcome_compile, outcome_readUnit, reads]
  change ((CompilationUnit.parse lexed.tokens source.toList).map _).map _ = _
  rw [CompilationUnit.parse]
  cases CompilationUnit.ofTokens? lexed.tokens <;> rfl

/-- What compiles has been split into tokens, and these form the program whose
code it compiles to. -/
theorem ofTokens?_of_compile {source : String} {strict : Bool} {compiled : Compiled}
    (compiles : (compile source strict).outcome = .ok compiled) :
    (Lexed.read source.toList strict).outcome = .ok (Lexed.ofSource source.toList) ∧
    ∃ unit, CompilationUnit.ofTokens? (Lexed.ofSource source.toList).tokens = .ok unit ∧
      compiled = ⟨⟨unit.code⟩, (Lexed.ofSource source.toList).skipped⟩ := by
  cases reads : (Lexed.read source.toList strict).outcome with
  | error diagnostic =>
      rw [outcome_compile, outcome_readUnit, reads] at compiles
      contradiction
  | ok lexed =>
      rw [outcome_compile_of_read reads] at compiles
      obtain rfl := Lexed.eq_ofSource_of_read reads
      cases forms : CompilationUnit.ofTokens? (Lexed.ofSource source.toList).tokens with
      | error failure =>
          rw [forms] at compiles
          contradiction
      | ok unit =>
          rw [forms] at compiles
          exact ⟨rfl, unit, rfl, (Except.ok.inj compiles).symm⟩

theorem Lexed.isSome_anchor?_of_foldlM {source : List Char} {progress : Progress}
    {pieces : List Piece} {diagnostic : Diagnostic}
    (fails : pieces.foldlM (Progress.stepStrictly source) progress =
      .error diagnostic) : diagnostic.anchor?.isSome := by
  induction pieces generalizing progress with
  | nil => contradiction
  | cons piece rest ih =>
      rw [List.foldlM_cons] at fails
      cases piece with
      | stray char =>
          obtain rfl := Except.error.inj fails
          rfl
      | _ => exact ih fails

theorem Lexed.isSome_anchor?_of_read {source : List Char} {strict : Bool}
    {diagnostic : Diagnostic}
    (fails : (read source strict).outcome = .error diagnostic) :
    diagnostic.anchor?.isSome := by
  cases strict with
  | false => contradiction
  | true =>
      rw [outcome_read, if_pos rfl] at fails
      cases surveyed : surveyStrictly source with
      | ok progress =>
          rw [surveyed] at fails
          contradiction
      | error other =>
          rw [surveyed] at fails
          obtain rfl := Except.error.inj fails
          exact isSome_anchor?_of_foldlM surveyed

theorem CompilationUnit.isSome_anchor?_of_parse {tokens : List Token}
    {source : List Char} {diagnostic : Diagnostic}
    (fails : parse tokens source = .error diagnostic) : diagnostic.anchor?.isSome := by
  rw [parse] at fails
  cases read : ofTokens? tokens with
  | ok unit =>
      rw [read] at fails
      contradiction
  | error failure =>
      rw [read] at fails
      obtain rfl := Except.error.inj fails
      rfl

/-- Whatever keeps a source from compiling is at fault in some place of the source. -/
theorem isSome_anchor?_of_compile {source : String} {strict : Bool}
    {diagnostic : Diagnostic}
    (fails : (compile source strict).outcome = .error diagnostic) :
    diagnostic.anchor?.isSome := by
  rw [outcome_compile, outcome_readUnit] at fails
  cases lexed : (Lexed.read source.toList strict).outcome with
  | error other =>
      rw [lexed] at fails
      obtain rfl := Except.error.inj fails
      exact Lexed.isSome_anchor?_of_read lexed
  | ok found =>
      rw [lexed, Except.bind] at fails
      cases parsed : CompilationUnit.parse found.tokens source.toList with
      | ok unit =>
          rw [parsed] at fails
          contradiction
      | error other =>
          rw [parsed] at fails
          obtain rfl := Except.error.inj fails
          exact CompilationUnit.isSome_anchor?_of_parse parsed

/-! ### Labels are never at fault -/

variable (source : String) (strict : Bool) (label : Label)

theorem compile_ne_undefinedLabel :
    (compile source strict).outcome ≠ .error (.undefinedLabel label) := by
  intro fails
  have located := isSome_anchor?_of_compile fails
  contradiction

theorem compile_ne_duplicateLabel :
    (compile source strict).outcome ≠ .error (.duplicateLabel label) := by
  intro fails
  have located := isSome_anchor?_of_compile fails
  contradiction

end StackCompiler
