import StackCompiler.Proofs.Compiling
import StackCompiler.Proofs.Execution.Realisation

/-!
# Compiled programs do what their statements do

The code of a statement realises the runs of the statement, whatever its labels
are called, provided that the code as a whole defines no label twice. The
canonical form of the code of a program does define every label once, so the
machine comes to its end with some output and store if and only if the
statements of the program do (`compile_halts_iff`).
-/

namespace StackCompiler

universe u v

namespace Stmt

variable {Store : Type u} {Value : Type v} (interpretation : Interpretation Store Value)
variable {code : Code} (rename : Label → Label)

mutual

/-- The code of a statement realises its runs, whatever its labels are renamed to. -/
theorem realises_code (unique : (Code.definitions code).Nodup) (taken : Nat) :
    (stmt : Stmt) →
    Realises interpretation code (Code.relabel rename (stmt.code taken))
      (stmt.Executes interpretation)
  | block body => by
      rw [code_block]
      simp only [Executes]
      exact realises_codeAll unique taken body
  | ifThen condition consequence => by
      rw [code_ifThen, relabel_codeOfIf]
      simp only [Executes]
      exact (realises_code unique taken consequence).codeOfIf unique
  | ifElse condition consequence alternative => by
      rw [code_ifElse, relabel_codeOfIfElse]
      simp only [Executes]
      exact (realises_code unique taken consequence).codeOfIfElse unique
        (realises_code unique _ alternative)
  | loop condition body => by
      rw [code_loop, relabel_codeOfLoop]
      simp only [Executes]
      exact (realises_code unique taken body).codeOfLoop unique
  | print value => by
      rw [code_print]
      simp only [Executes]
      exact Realises.print value.fragment
  | assign target value => by
      rw [code_assign]
      simp only [Executes]
      exact Realises.assign value.fragment target.render

theorem realises_codeAll (unique : (Code.definitions code).Nodup) (taken : Nat) :
    (stmts : List Stmt) →
    Realises interpretation code (Code.relabel rename (codeAll taken stmts))
      (ExecutesAll interpretation stmts)
  | [] => by
      rw [codeAll_nil]
      simp only [ExecutesAll]
      exact Realises.nil
  | first :: rest => by
      rw [codeAll_cons, Code.relabel_append]
      simp only [ExecutesAll]
      exact (realises_code unique taken first).append (realises_codeAll unique _ rest)

end

end Stmt

section

variable {Store : Type u} {Value : Type v} (interpretation : Interpretation Store Value)

theorem Realises.declareAll (code : Code) (rename : Label → Label)
    (declarations : List Declaration) :
    Realises interpretation code (Code.relabel rename (declarations.map .declare))
      fun before output after => output = [] ∧ after = before := by
  induction declarations with
  | nil => exact Realises.nil
  | cons declaration rest ih =>
      apply ((Realises.declare declaration).append ih).congr
      intro before output after
      constructor
      · intro holds
        rcases holds with ⟨between, early, late, rfl, ⟨rfl, rfl⟩, rfl, rfl⟩
        exact ⟨rfl, rfl⟩
      · intro holds
        rcases holds with ⟨rfl, rfl⟩
        exact ⟨_, [], [], rfl, ⟨rfl, rfl⟩, rfl, rfl⟩

theorem CompilationUnit.realises_code (unit : CompilationUnit) :
    Realises interpretation unit.code unit.code
      (Stmt.ExecutesAll interpretation unit.body) := by
  have unique : (Code.definitions unit.code).Nodup :=
    Code.nodup_definitions_canonical unit.nodup_definitions_rawCode
  have declares :=
    Realises.declareAll interpretation unit.code (Code.placeOf unit.rawCode)
    unit.declarations
  have executes :=
    Stmt.realises_codeAll interpretation (Code.placeOf unit.rawCode) unique 0 unit.body
  have both := declares.append executes
  rw [← Code.relabel_append] at both
  apply both.congr
  intro before output after
  constructor
  · intro holds
    rcases holds with ⟨between, early, late, rfl, ⟨rfl, rfl⟩, runs⟩
    exact runs
  · intro runs
    exact ⟨before, [], output, rfl, ⟨rfl, rfl⟩, runs⟩

/-- Where the machine stands past the last instruction, it has come to its end. -/
theorem Interpretation.Finishes.eq_of_past {interpretation : Interpretation Store Value}
    {code : Code} {steps : Nat} {state : MachineState Store Value} {output : List Value}
    {after : Store} (finishes : interpretation.Finishes code steps state output after)
    (past : state.position = code.length) :
    state.output = output ∧ state.store = after := by
  obtain ⟨last, run, _, rfl, rfl⟩ := finishes
  cases steps with
  | zero =>
      obtain rfl := Option.some.inj run
      exact ⟨rfl, rfl⟩
  | succ steps =>
      rw [Interpretation.run, Interpretation.step, past, List.getElem?_length] at run
      contradiction

/-- The machine gets through code that realises a relation just as the relation says. -/
theorem Realises.halts_iff {interpretation : Interpretation Store Value} {code : Code}
    {runs : Store → List Value → Store → Prop}
    (realises : Realises interpretation code code runs) (accumulator : Option Value)
    (before : Store) (output : List Value) (after : Store) :
    interpretation.Halts code accumulator before output after ↔
    runs before output after := by
  constructor
  · intro holds
    rcases holds with ⟨steps, finishes⟩
    obtain ⟨fewer, _, leftover, printed, last, executes, outside⟩ :=
      realises.passes (Code.at_self code) finishes
    obtain ⟨rfl, rfl⟩ := outside.eq_of_past (Nat.zero_add _)
    exact executes
  · intro executes
    obtain ⟨leftover, steps, run⟩ :=
      realises.reaches (Code.at_self code) executes accumulator []
    exact ⟨steps, _, run, Nat.zero_add _, rfl, rfl⟩

end

/-- A source that reads as a program compiles, and the machine gets through its code
with some output and store if and only if the statements come to their end with them. -/
theorem compile_halts_iff {source : String} {strict : Bool} {unit : CompilationUnit}
    {skipped : List SkippedChar}
    (read : (readUnit source strict).outcome = .ok (unit, skipped)) :
    ∃ program, (compile source strict).outcome = .ok ⟨program, skipped⟩ ∧
      ∀ {Store : Type u} {Value : Type v} (interpretation : Interpretation Store Value)
          (accumulator : Option Value) (before : Store) (output : List Value)
          (after : Store),
        interpretation.Halts program.instructions accumulator before output after ↔
        Stmt.ExecutesAll interpretation unit.body before output after := by
  refine ⟨⟨unit.code⟩, ?_, ?_⟩
  · rw [outcome_compile, read]
    rfl
  · intro Store Value interpretation accumulator before output after
    exact (unit.realises_code interpretation).halts_iff accumulator before output after

/-- Numbers as stores and values, for a program whose only variable is `n`. -/
def counting : Interpretation Nat Nat where
  evaluate fragment store := if fragment = "n" then store else store - 1
  isTrue value := value != 0
  update _ value _ := value

/-- What is read from `while (n) { if (n) print n; else { } n = n - 1; }`. -/
def countdown : CompilationUnit where
  declarations := []
  body :=
    [.loop (.designator ⟨"n", []⟩) (.block
      [.ifElse (.designator ⟨"n", []⟩) (.print (.designator ⟨"n", []⟩)) (.block []),
        .assign ⟨"n", []⟩ (.binary .subtract (.designator ⟨"n", []⟩) (.number "1"))])]

theorem halts_countdown :
    (readUnit "while (n) { if (n) print n; else { } n = n - 1; }" false).outcome =
      .ok (countdown, []) ∧
    ∃ program,
      (compile "while (n) { if (n) print n; else { } n = n - 1; }" false).outcome =
        .ok ⟨program, []⟩ ∧
      counting.Halts program.instructions none 2 [2, 1] 0 := by
  have read :
      (readUnit "while (n) { if (n) print n; else { } n = n - 1; }" false).outcome =
        .ok (countdown, []) := by
    decide +kernel
  refine ⟨read, ?_⟩
  obtain ⟨program, compiled, halts⟩ := compile_halts_iff read
  refine ⟨program, compiled, (halts counting none 2 [2, 1] 0).2 ?_⟩
  have passes : ∀ n, Stmt.Executes counting
      (.block
        [.ifElse (.designator ⟨"n", []⟩) (.print (.designator ⟨"n", []⟩)) (.block []),
          .assign ⟨"n", []⟩ (.binary .subtract (.designator ⟨"n", []⟩) (.number "1"))])
      (n + 1) [n + 1] n := by
    intro n
    have holds : counting.isTrue
        (counting.evaluate (Expr.designator ⟨"n", []⟩).fragment (n + 1)) = true := rfl
    simp only [Stmt.ExecutesAll, Stmt.Executes, if_pos holds]
    exact ⟨n + 1, [n + 1], [], rfl, ⟨rfl, rfl⟩, n, [], [], rfl, ⟨rfl, rfl⟩, rfl, rfl⟩
  simp only [countdown, Stmt.ExecutesAll]
  refine ⟨0, [2, 1], [], rfl, ?_, rfl, rfl⟩
  rw [Stmt.Executes]
  exact .again rfl (passes 1) (.again rfl (passes 0) (.done rfl))

end StackCompiler
