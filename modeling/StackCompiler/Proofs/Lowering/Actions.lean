import StackCompiler.Proofs.Lowering.Emissions

/-!
# What code does besides jumping

Control flow is laid over what a program does. Where the definitions of labels
and the jumps are left out of the code of a program, its actions are left, all
of them, in the order of the source (`actions_of_compile`). Each label that a
statement takes is defined by one instruction and jumped to by one other, so the
number of labels tells how much is left out.
-/

namespace StackCompiler

namespace Instruction

/-- Whether an instruction defines a label or jumps. -/
def isControl (instruction : Instruction) : Bool :=
  instruction.isLabel || instruction.isJump

end Instruction

namespace Code

/-- Code without the definitions of labels and the jumps. -/
def actions (code : Code) : Code :=
  code.filter fun instruction => !instruction.isControl

/-- The number of definitions of labels and jumps in code. -/
def controlCount (code : Code) : Nat := code.countP Instruction.isControl

/-- Whether some actions are left of code when a number of definitions of labels
and jumps is left out. -/
structure Does (code done : Code) (control : Nat) : Prop where
  actions_eq : actions code = done
  controlCount_eq : controlCount code = control

namespace Does

variable {code back done doneToo : Code} {control more : Nat} {condition : Expr}
  {skip exit : Label}

theorem refl (code : Code) : Does code (actions code) (controlCount code) := ⟨rfl, rfl⟩

theorem append (does : Does code done control) (doesToo : Does back doneToo more) :
    Does (code ++ back) (done ++ doneToo) (control + more) where
  actions_eq := by
    rw [← does.actions_eq, ← doesToo.actions_eq]
    exact List.filter_append code back
  controlCount_eq := by
    rw [← does.controlCount_eq, ← doesToo.controlCount_eq]
    exact List.countP_append

/-- The numbers of labels make no difference to what is done. -/
theorem relabel (does : Does code done control) (rename : Label → Label) :
    Does (Code.relabel rename code) done control := by
  obtain ⟨rfl, rfl⟩ := does
  induction code with
  | nil => exact ⟨rfl, rfl⟩
  | cons instruction rest ih =>
      have single : Does [instruction.relabel rename] (actions [instruction])
          (controlCount [instruction]) := by
        cases instruction <;> exact ⟨rfl, rfl⟩
      have parts := (refl [instruction]).append (refl rest)
      rw [List.singleton_append] at parts
      rw [parts.actions_eq, parts.controlCount_eq]
      exact single.append ih

theorem codeOfIf (does : Does code done control) :
    Does (Stmt.codeOfIf condition code skip) (.eval condition.fragment :: done)
      (control + 2) := by
  have opening :
      Does [.eval condition.fragment, .gotoFalse skip] [.eval condition.fragment] 1 :=
    ⟨rfl, rfl⟩
  have closing : Does [.label skip] [] 1 := ⟨rfl, rfl⟩
  have whole := (opening.append does).append closing
  rwa [List.append_nil, Nat.add_comm 1] at whole

theorem codeOfIfElse (does : Does code done control)
    (doesToo : Does back doneToo more) :
    Does (Stmt.codeOfIfElse condition code back skip exit)
      (.eval condition.fragment :: (done ++ doneToo)) (control + more + 4) := by
  have opening :
      Does [.eval condition.fragment, .gotoFalse skip] [.eval condition.fragment] 1 :=
    ⟨rfl, rfl⟩
  have middle : Does [.goto exit, .label skip] [] 2 := ⟨rfl, rfl⟩
  have closing : Does [.label exit] [] 1 := ⟨rfl, rfl⟩
  have whole := (((opening.append does).append middle).append doesToo).append closing
  have counted : 1 + control + 2 + more + 1 = control + more + 4 := by omega
  rw [List.append_nil, List.append_nil, counted] at whole
  exact whole

theorem codeOfLoop (does : Does code done control) :
    Does (Stmt.codeOfLoop condition code skip exit) (.eval condition.fragment :: done)
      (control + 4) := by
  have opening : Does [.label skip, .eval condition.fragment, .gotoFalse exit]
      [.eval condition.fragment] 2 :=
    ⟨rfl, rfl⟩
  have closing : Does [.goto skip, .label exit] [] 2 := ⟨rfl, rfl⟩
  have whole := (opening.append does).append closing
  rwa [List.append_nil, Nat.add_comm 2] at whole

end Does

/-- Declarations are no control. -/
theorem does_declare (declarations : List Declaration) :
    Does (declarations.map .declare) (declarations.map .declare) 0 := by
  induction declarations with
  | nil => exact ⟨rfl, rfl⟩
  | cons declaration rest ih =>
      have single : Does [.declare declaration] [.declare declaration] 0 := ⟨rfl, rfl⟩
      exact single.append ih

end Code

namespace Stmt

mutual

/-- What a statement does, in the order of its text: it evaluates conditions and
values, assigns and prints. -/
def actions : Stmt → Code
  | block body => actionsAll body
  | ifThen condition consequence => .eval condition.fragment :: consequence.actions
  | ifElse condition consequence alternative =>
    .eval condition.fragment :: (consequence.actions ++ alternative.actions)
  | loop condition body => .eval condition.fragment :: body.actions
  | print value => [.print value.fragment]
  | assign target value => [.eval value.fragment, .assign target.render]

/-- What statements that follow each other do. -/
def actionsAll : List Stmt → Code
  | [] => []
  | first :: rest => first.actions ++ actionsAll rest

end

mutual

/-- The code of a statement does what the statement does, and each label takes
two instructions of control. -/
theorem does_code (taken : Nat) :
    (stmt : Stmt) → (stmt.code taken).Does stmt.actions (2 * stmt.labelCount)
  | block body => by
      rw [code_block, actions, labelCount]
      exact does_codeAll taken body
  | ifThen condition consequence => by
      rw [code_ifThen, actions, labelCount]
      exact (does_code taken consequence).codeOfIf
  | ifElse condition consequence alternative => by
      rw [code_ifElse, actions, labelCount, Nat.mul_add, Nat.mul_add]
      exact (does_code taken consequence).codeOfIfElse (does_code _ alternative)
  | loop condition body => by
      rw [code_loop, actions, labelCount]
      exact (does_code taken body).codeOfLoop
  | print value => by
      rw [code_print, actions, labelCount]
      exact ⟨rfl, rfl⟩
  | assign target value => by
      rw [code_assign, actions, labelCount]
      exact ⟨rfl, rfl⟩

theorem does_codeAll (taken : Nat) : (stmts : List Stmt) →
    (codeAll taken stmts).Does (actionsAll stmts) (2 * labelCountAll stmts)
  | [] => by
      rw [codeAll_nil, actionsAll, labelCountAll]
      exact ⟨rfl, rfl⟩
  | first :: rest => by
      rw [codeAll_cons, actionsAll, labelCountAll, Nat.mul_add]
      exact (does_code taken first).append (does_codeAll _ rest)

end

end Stmt

/-- The code of a program declares its variables and then does what
its statements do. -/
theorem CompilationUnit.does_code (unit : CompilationUnit) :
    unit.code.Does (unit.declarations.map .declare ++ Stmt.actionsAll unit.body)
      (2 * Stmt.labelCountAll unit.body) := by
  have whole :=
    (Code.does_declare unit.declarations).append (Stmt.does_codeAll 0 unit.body)
  rw [Nat.zero_add] at whole
  exact whole.relabel (Code.placeOf unit.rawCode)

/-- Compiling loses, doubles and moves nothing. But for labels and jumps, the code of a
source declares what is declared and then does what each statement does, in order. -/
theorem actions_of_compile (source : String) (strict : Bool) (compiled : Compiled)
    (compiles : (compile source strict).outcome = .ok compiled) :
    ∃ lexed unit, (Lexed.read source.toList strict).outcome = .ok lexed ∧
      CompilationUnit.parse lexed.tokens source.toList = .ok unit ∧
      (∃ composition : Composition, composition.lexemes = lexed.lexemes ∧
        composition.tree = unit) ∧
      Code.actions compiled.program.instructions =
        unit.declarations.map .declare ++ Stmt.actionsAll unit.body ∧
      Code.controlCount compiled.program.instructions =
        2 * (Stmt.partsAll unit.body).countP Stmt.isIfThen +
        4 * (Stmt.partsAll unit.body).countP Stmt.isIfElse +
        4 * (Stmt.partsAll unit.body).countP Stmt.isLoop := by
  obtain ⟨reads, unit, forms, rfl⟩ := ofTokens?_of_compile compiles
  obtain ⟨composition, tree, _, written⟩ :=
    CompilationUnit.ofTokens?_ofSource_eq_ok_iff.1 forms
  have counted := Stmt.labelCountAll_eq unit.body
  refine ⟨_, unit, reads, CompilationUnit.parse_eq_ok_iff.2 forms,
    ⟨composition, written, tree⟩, unit.does_code.actions_eq, ?_⟩
  rw [unit.does_code.controlCount_eq]
  omega

/-- Both forms of conditionals inside of a loop, one of them with an empty block. -/
theorem actions_of_compile_nested :
    let compiled : Compiled := ⟨⟨[.declare ⟨.int, "a", []⟩, .declare ⟨.int, "b", [2]⟩,
        .label ⟨1⟩, .eval "a", .gotoFalse ⟨2⟩, .eval "b[1]", .gotoFalse ⟨3⟩, .print "a",
        .goto ⟨4⟩, .label ⟨3⟩, .label ⟨4⟩, .eval "a 1 <", .gotoFalse ⟨5⟩, .eval "a",
        .assign "b[0]", .label ⟨5⟩, .goto ⟨1⟩, .label ⟨2⟩]⟩, []⟩
    (compile "int a,b[2];while(a){if(b[1])print a;else{}if(a<1)b[0]=a;}"
        false).outcome = .ok compiled ∧
      ∃ lexed unit,
        (Lexed.read "int a,b[2];while(a){if(b[1])print a;else{}if(a<1)b[0]=a;}".toList
          false).outcome =
          .ok lexed ∧
        CompilationUnit.parse lexed.tokens
          "int a,b[2];while(a){if(b[1])print a;else{}if(a<1)b[0]=a;}".toList =
          .ok unit ∧
        (∃ composition : Composition, composition.lexemes = lexed.lexemes ∧
          composition.tree = unit) ∧
        [.declare ⟨.int, "a", []⟩, .declare ⟨.int, "b", [2]⟩, .eval "a", .eval "b[1]",
            .print "a", .eval "a 1 <", .eval "a", .assign "b[0]"] =
          unit.declarations.map .declare ++ Stmt.actionsAll unit.body ∧
        10 = 2 * (Stmt.partsAll unit.body).countP Stmt.isIfThen +
          4 * (Stmt.partsAll unit.body).countP Stmt.isIfElse + 4 *
              (Stmt.partsAll unit.body).countP Stmt.isLoop := by
  intro compiled
  have compiles : (compile "int a,b[2];while(a){if(b[1])print a;else{}if(a<1)b[0]=a;}"
      false).outcome =
      .ok compiled := by decide +kernel
  exact ⟨compiles, actions_of_compile _ _ _ compiles⟩

end StackCompiler
