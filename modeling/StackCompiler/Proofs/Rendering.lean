import StackCompiler.Proofs.Code.Lines
import StackCompiler.Proofs.Compiling

/-!
# The texts of compiled programs

The text of a compiled program has a line for each instruction, and it
determines the program, whatever the names in its source are
(`render_of_compile`): the texts in the instructions are words of the source,
and neither a space nor a line break is in any of them.
-/

namespace StackCompiler

theorem Text.not_mem_intercalate {separator : String} {words : List String}
    {char : Char} (notBetween : char ∉ separator.toList)
    (notWithin : ∀ word ∈ words, char ∉ word.toList) :
    char ∉ (separator.intercalate words).toList := by
  induction words with
  | nil => simp
  | cons first rest ih =>
      rw [List.forall_mem_cons] at notWithin
      cases rest with
      | nil => simpa using notWithin.1
      | cons second rest =>
          rw [String.intercalate_cons_cons]
          simp only [String.toList_append, List.mem_append, not_or]
          exact ⟨⟨notWithin.1, notBetween⟩, ih notWithin.2⟩

theorem Expr.newline_not_mem_fragment {expr : Expr} (formed : expr.Formed) :
    '\n' ∉ expr.fragment.toList := by
  refine Text.not_mem_intercalate (by decide) fun word isWord found => ?_
  exact absurd (isSolid_of_mem_words formed word isWord '\n' found) (by decide)

theorem Instruction.Legible.relabel {instruction : Instruction}
    (legible : instruction.Legible) (rename : Label → Label) :
    (instruction.relabel rename).Legible := by
  cases instruction <;> exact legible

namespace Stmt

mutual

/-- The code of a statement with texts that fit is legible. -/
theorem legible_code (taken : Nat) : (stmt : Stmt) → stmt.Fits →
    ∀ instruction ∈ stmt.code taken, instruction.Legible
  | block body, fits => by
      rw [code_block]
      exact legible_codeAll taken body fits
  | ifThen condition consequence, fits => by
      have shown := Expr.newline_not_mem_fragment fits.1.formed
      have legible := legible_code taken consequence fits.2
      rw [code_ifThen, codeOfIf]
      simp only [List.forall_mem_append, List.forall_mem_cons, Instruction.Legible]
      exact ⟨⟨by simpa using shown, legible⟩, by simp⟩
  | ifElse condition consequence alternative, fits => by
      have shown := Expr.newline_not_mem_fragment fits.1.formed
      have legible := legible_code taken consequence fits.2.1
      have legibleToo :=
        legible_code (taken + consequence.labelCount) alternative fits.2.2
      rw [code_ifElse, codeOfIfElse]
      simp only [List.forall_mem_append, List.forall_mem_cons, Instruction.Legible]
      exact ⟨⟨⟨⟨by simpa using shown, legible⟩, by simp⟩, legibleToo⟩, by simp⟩
  | loop condition body, fits => by
      have shown := Expr.newline_not_mem_fragment fits.1.formed
      have legible := legible_code taken body fits.2
      rw [code_loop, codeOfLoop]
      simp only [List.forall_mem_append, List.forall_mem_cons, Instruction.Legible]
      exact ⟨⟨by simpa using shown, legible⟩, by simp⟩
  | print value, fits => by
      rw [code_print, List.forall_mem_singleton]
      exact Expr.newline_not_mem_fragment (Expr.Fits.formed fits)
  | assign target value, fits => by
      rw [code_assign, List.forall_mem_cons, List.forall_mem_singleton]
      exact ⟨Expr.newline_not_mem_fragment fits.2.formed,
        Designator.newline_not_mem_render fits.1.formed⟩

theorem legible_codeAll (taken : Nat) : (stmts : List Stmt) → FitsAll stmts →
    ∀ instruction ∈ codeAll taken stmts, instruction.Legible
  | [], _ => by
      rw [codeAll_nil]
      exact List.forall_mem_nil _
  | first :: rest, fits => by
      rw [codeAll_cons, List.forall_mem_append]
      exact ⟨legible_code taken first fits.1, legible_codeAll _ rest fits.2⟩

end

end Stmt

theorem CompilationUnit.WellFormed.legible_code {unit : CompilationUnit}
    (wellFormed : unit.WellFormed) :
    ∀ instruction ∈ unit.code, instruction.Legible := by
  rw [code, Code.canonical, Code.relabel, List.forall_mem_map]
  intro instruction found
  apply Instruction.Legible.relabel
  rcases List.mem_append.1 found with declares | executes
  · obtain ⟨declaration, isDeclared, rfl⟩ := List.mem_map.1 declares
    exact wellFormed.declarations_fit declaration isDeclared
  · exact Stmt.legible_codeAll 0 unit.body wellFormed.body_fits instruction executes

theorem legible_of_compile {source : String} {strict : Bool} {compiled : Compiled}
    (compiles : (compile source strict).outcome = .ok compiled) :
    ∀ instruction ∈ compiled.program.instructions, instruction.Legible := by
  obtain ⟨unit, reads, program⟩ := readUnit_of_compile compiles
  rw [program]
  exact (CompilationUnit.wellFormed_of_readUnit reads).legible_code

/-- The text of a compiled program determines its instructions, and it is laid out in
lines, one for each of them. -/
theorem render_of_compile {source other : String} {strict strictToo : Bool}
    {compiled compiledToo : Compiled}
    (compiles : (compile source strict).outcome = .ok compiled)
    (compilesToo : (compile other strictToo).outcome = .ok compiledToo) :
    (compiled.program.render = compiledToo.program.render →
      compiled.program.instructions = compiledToo.program.instructions) ∧
    ∃ texts, compiled.program.LaidOut texts := by
  have legible := legible_of_compile compiles
  have legibleToo := legible_of_compile compilesToo
  exact ⟨fun same => congrArg Program.instructions
      (Program.eq_of_render legible legibleToo same), _, Program.laidOut_lines legible⟩

/-- Two sources with names that are words of instructions. In the last line the
word `END` is such a name first. -/
theorem render_of_compile_names :
    let compiled : Compiled := ⟨⟨[.declare ⟨.int, "L1", []⟩, .print "END"]⟩, []⟩
    let compiledToo : Compiled :=
      ⟨⟨[.declare ⟨.int, "L1", []⟩, .print "END"]⟩, [⟨'@', 1, 20⟩]⟩
    (compile "int L1;print END;" false).outcome = .ok compiled ∧
      (compile "int L1;{print(END);}@" false).outcome = .ok compiledToo ∧
      compiled.program.render = "    INT L1\n    PRINT END END\n" ∧
      compiled.program.instructions = compiledToo.program.instructions ∧
      ∃ texts, compiled.program.LaidOut texts := by
  intro compiled compiledToo
  have compiles : (compile "int L1;print END;" false).outcome = .ok compiled := by
    decide +kernel
  have compilesToo :
      (compile "int L1;{print(END);}@" false).outcome = .ok compiledToo := by
    decide +kernel
  have determined := render_of_compile compiles compilesToo
  exact ⟨compiles, compilesToo, rfl, determined.1 rfl, determined.2⟩

end StackCompiler
