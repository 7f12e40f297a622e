import StackCompiler.Compilation
import StackCompiler.Proofs.Code.Renumbering
import StackCompiler.Proofs.Lowering.Labels

/-!
# What compiling amounts to

A source that can be read as a program compiles, and the code of the program
is the canonical form of what it is lowered to: the labels of lowered code
never stand in the way.
-/

namespace StackCompiler

/-- The code of a program, with its labels numbered as they are first mentioned. -/
def CompilationUnit.code (unit : CompilationUnit) : Code := Code.canonical unit.rawCode

theorem CompilationUnit.nodup_definitions_rawCode (unit : CompilationUnit) :
    (Code.definitions unit.rawCode).Nodup := unit.ownsLabels_rawCode.nodup_definitions

theorem CompilationUnit.outcome_canonicalize (unit : CompilationUnit) :
    (Canonical.canonicalize unit.rawCode).outcome = .ok unit.code := by
  apply Canonical.outcome_canonicalize unit.nodup_definitions_rawCode
  intro label mentioned
  rw [unit.ownsLabels_rawCode.mem_definitions_iff]
  exact unit.ownsLabels_rawCode.mem_labels_iff.1 mentioned

theorem Traced.outcome_note_bind {α : Type} (events : List Log.Event)
    (next : PUnit → Traced α) :
    (Traced.note events >>= next).outcome = (next ⟨⟩).outcome := Traced.outcome_bind _ _

/-- The outcome of a compilation, without the notes made on the way. -/
theorem outcome_compile (source : String) (strict : Bool) :
    (compile source strict).outcome = (readUnit source strict).outcome.map
        fun (unit, skipped) => ⟨⟨unit.code⟩, skipped⟩ := by
  rw [compile, Traced.outcome_bind]
  cases (readUnit source strict).outcome with
  | error diagnostic => rfl
  | ok result =>
      obtain ⟨unit, skipped⟩ := result
      change Traced.outcome _ = Except.ok _
      rw [Traced.outcome_note_bind, unit.run_lower, Traced.outcome_note_bind,
        Traced.outcome_bind, unit.outcome_canonicalize]
      rfl

/-- What compiles to some code has been read as a program with that code. -/
theorem readUnit_of_compile {source : String} {strict : Bool} {compiled : Compiled}
    (compiles : (compile source strict).outcome = .ok compiled) :
    ∃ unit, (readUnit source strict).outcome = .ok (unit, compiled.skipped) ∧
      compiled.program = ⟨unit.code⟩ := by
  rw [outcome_compile] at compiles
  cases read : (readUnit source strict).outcome with
  | error diagnostic =>
      rw [read] at compiles
      contradiction
  | ok result =>
      obtain ⟨unit, skipped⟩ := result
      rw [read] at compiles
      obtain rfl := Except.ok.inj compiles
      exact ⟨unit, rfl, rfl⟩

end StackCompiler
