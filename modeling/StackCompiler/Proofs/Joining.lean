import StackCompiler.Proofs.Compiling
import StackCompiler.Proofs.Reading.Sources
import StackCompiler.Proofs.Token.Seams

/-!
# Sources joined by a line break

A source that declares nothing can be put behind another one. The whole compiles
to the code of the one and then the code of the other, with the labels of the
latter behind those of the former (`compile_append`).
-/

namespace StackCompiler

/-! ### Reading -/

namespace Composition

/-- A composition with more sentences at its end. -/
def extend (composition : Composition) (sentences : List Sentence) : Composition :=
  { composition with others := composition.others ++ sentences }

variable (composition other : Composition)

theorem lexemes_extend (sentences : List Sentence) :
    (composition.extend sentences).lexemes =
      composition.lexemes ++ sentences.flatMap Sentence.lexemes := by
  rw [lexemes, lexemes, List.append_assoc, ← List.flatMap_append]
  rfl

theorem tree_extend (sentences : List Sentence) :
    (composition.extend sentences).tree =
      ⟨composition.tree.declarations,
        composition.tree.body ++ sentences.map Sentence.tree⟩ := by
  rw [tree, tree, ← List.map_append]
  rfl

variable {composition other}

theorem fits_extend {budget : Budget}
    (fits : Language.composition.Fits budget composition)
    (fitsToo : Language.composition.Fits budget other) :
    Language.composition.Fits budget (composition.extend other.sentences) :=
  List.forall_mem_append.2 ⟨fits, fitsToo⟩

/-- Every line declares something. -/
theorem lines_eq_nil (none : composition.tree.declarations = []) :
    composition.lines = [] := by
  cases lines : composition.lines with
  | nil => rfl
  | cons line rest =>
      rw [tree, lines] at none
      contradiction

end Composition

/-- Where two sources are read and the second one declares nothing, both
are read together. -/
theorem readUnit_append {source other : String} {unit : CompilationUnit}
    {body : List Stmt} {skipped skippedToo : List SkippedChar}
    (reads : (readUnit source false).outcome = .ok (unit, skipped))
    (readsToo : (readUnit other false).outcome = .ok (⟨[], body⟩, skippedToo)) :
    (readUnit (source ++ "\n" ++ other) false).outcome =
      .ok (⟨unit.declarations, unit.body ++ body⟩,
        skipped ++
          skippedToo.map
            (SkippedChar.shift (source.toList.count '\n' + 1)
              (source.utf8ByteSize + 1))) := by
  obtain ⟨composition, tree, fits, written⟩ := exists_composition_of_readUnit reads
  obtain ⟨⟨lines, first, others⟩, treeToo, fitsToo, writtenToo⟩ :=
    exists_composition_of_readUnit readsToo
  obtain rfl : lines = [] :=
    Composition.lines_eq_nil (congrArg CompilationUnit.declarations treeToo)
  have joined :
      (source ++ "\n" ++ other).toList = source.toList ++ '\n' :: other.toList := by
    simp
  have writtenBoth : (composition.extend (first :: others)).lexemes =
      (Lexed.ofSource (source ++ "\n" ++ other).toList).lexemes := by
    rw [joined, Lexed.lexemes_append_lineBreak, ← written, ← writtenToo,
      Composition.lexemes_extend]
    rfl
  rw [readUnit_of_composition (Composition.fits_extend fits fitsToo) writtenBoth,
    joined, Lexed.skipped_append_lineBreak, ← (readUnit_cases reads).2,
      ← (readUnit_cases readsToo).2,
    Text.byteLength_toList, Composition.tree_extend, tree]
  obtain ⟨-, rfl⟩ := CompilationUnit.mk.inj treeToo
  rfl

/-! ### Code -/

namespace CompilationUnit

theorem rawCode_append (unit : CompilationUnit) (body : List Stmt) :
    rawCode ⟨unit.declarations, unit.body ++ body⟩ =
      unit.rawCode ++ Stmt.codeAll (Stmt.labelCountAll unit.body) body := by
  rw [rawCode, rawCode, Stmt.codeAll_append, Nat.zero_add, List.append_assoc]

/-- The code of statements behind a program continues the numbers of the labels
of the program. -/
theorem code_append (unit : CompilationUnit) (body : List Stmt) :
    code ⟨unit.declarations, unit.body ++ body⟩ =
      unit.code ++
        Code.relabel (Label.shift (Code.labelCount unit.code)) (code ⟨[], body⟩) := by
  have disjoint :
      ∀ label ∈ Code.labels (Stmt.codeAll (Stmt.labelCountAll unit.body) body),
      label ∉ Code.labels unit.rawCode := by
    intro label member memberToo
    have above := ((Stmt.ownsLabels_codeAll _ body).mem_labels_iff.1 member).1
    have below := (unit.ownsLabels_rawCode.mem_labels_iff.1 memberToo).2
    omega
  have moved : Stmt.codeAll (Stmt.labelCountAll unit.body) body =
      Code.relabel (Label.shift (Stmt.labelCountAll unit.body))
        (Stmt.codeAll 0 body) := by
    rw [← Stmt.codeAll_add, Nat.zero_add]
  have same : Code.canonical (Stmt.codeAll (Stmt.labelCountAll unit.body) body) =
      code ⟨[], body⟩ := by
    rw [moved,
      Code.canonical_relabel fun left _ right _ equal => Label.shift_injective _ equal]
    rfl
  have counted : Code.labelCount unit.code = Code.labelCount unit.rawCode :=
    Code.labelCount_canonical _
  rw [code, rawCode_append, Code.canonical_append disjoint, same, counted]
  rfl

end CompilationUnit

/-- Where two sources compile and the second one declares nothing, the two with
a line break between them compile to the code of both, the labels of the second
behind those of the first. -/
theorem compile_append (source other : String) (first second : Compiled)
    (body : List Stmt) (skipped : List SkippedChar)
    (compiles : (compile source false).outcome = .ok first)
    (compilesToo : (compile other false).outcome = .ok second)
    (readsToo : (readUnit other false).outcome = .ok (⟨[], body⟩, skipped)) :
    (compile (source ++ "\n" ++ other) false).outcome = .ok
      { program := ⟨first.program.instructions ++
          Code.relabel (Label.shift (Code.labelCount first.program.instructions))
            second.program.instructions⟩
        skipped := first.skipped ++
          second.skipped.map
            (SkippedChar.shift (source.toList.count '\n' + 1)
              (source.utf8ByteSize + 1)) } := by
  obtain ⟨unit, reads, program⟩ := readUnit_of_compile compiles
  obtain ⟨unitToo, readsUnit, programToo⟩ := readUnit_of_compile compilesToo
  obtain ⟨rfl, rfl⟩ := Prod.mk.inj (Except.ok.inj (readsToo.symm.trans readsUnit))
  rw [outcome_compile, readUnit_append reads readsToo, program, programToo,
      ← unit.code_append body]
  rfl

/-- A loop behind a conditional, with a character that is skipped. -/
theorem compile_append_loop :
    (compile ("if(a)b=1;" ++ "\n" ++ "while(c){@}") false).outcome = .ok
      { program := ⟨[.eval "a", .gotoFalse ⟨1⟩, .eval "1", .assign "b", .label ⟨1⟩,
          .label ⟨2⟩, .eval "c", .gotoFalse ⟨3⟩, .goto ⟨2⟩, .label ⟨3⟩]⟩
        skipped := [⟨'@', 2, 19⟩] } := by
  have compiles : (compile "if(a)b=1;" false).outcome = .ok
      ⟨⟨[.eval "a", .gotoFalse ⟨1⟩, .eval "1", .assign "b", .label ⟨1⟩]⟩, []⟩ := by
    decide +kernel
  have compilesToo : (compile "while(c){@}" false).outcome = .ok
      ⟨⟨[.label ⟨1⟩, .eval "c", .gotoFalse ⟨2⟩, .goto ⟨1⟩, .label ⟨2⟩]⟩,
          [⟨'@', 1, 9⟩]⟩ := by decide +kernel
  have readsToo : (readUnit "while(c){@}" false).outcome = .ok
      (⟨[], [.loop (.designator ⟨"c", []⟩) (.block [])]⟩, [⟨'@', 1, 9⟩]) := by
    decide +kernel
  exact compile_append _ _ _ _ _ _ compiles compilesToo readsToo

end StackCompiler
