import StackCompiler.CompilationUnit.Lowering
import StackCompiler.Proofs.Code.Labels

/-!
# Lowering as a function of the labels taken

How many labels a statement takes does not depend on the supply, and its code
depends on the number of labels taken before only. The equations for both follow
the forms of statements, so that nothing else has to look into the way in which
lowering passes the supply along.
-/

namespace StackCompiler

namespace Stmt

mutual

/-- The number of labels that a statement takes: one for a conditional without
alternative, two for one with an alternative, and two for a loop. -/
def labelCount : Stmt → Nat
  | block body => labelCountAll body
  | ifThen _ consequence => consequence.labelCount + 1
  | ifElse _ consequence alternative =>
      consequence.labelCount + alternative.labelCount + 2
  | loop _ body => body.labelCount + 2
  | print _ => 0
  | assign _ _ => 0

/-- The number of labels that statements take together. -/
def labelCountAll : List Stmt → Nat
  | [] => 0
  | first :: rest => first.labelCount + labelCountAll rest

end

/-- The code of a statement that is lowered when `taken` labels have been taken. -/
def code (taken : Nat) (stmt : Stmt) : Code := (stmt.lower.run ⟨taken⟩).1

/-- The code of statements that are lowered when `taken` labels have been taken. -/
def codeAll (taken : Nat) (stmts : List Stmt) : Code := ((lowerAll stmts).run ⟨taken⟩).1

/-! ### Passing the supply along -/

theorem run_lower_ifThen (condition : Expr) (consequence : Stmt)
    (supply : LabelSupply) :
    (ifThen condition consequence).lower.run supply =
      let first := consequence.lower.run supply
      (codeOfIf condition first.1 ⟨first.2.allocated⟩, ⟨first.2.allocated + 1⟩) := by
  rw [lower]
  rfl

theorem run_lower_ifElse (condition : Expr) (consequence alternative : Stmt)
    (supply : LabelSupply) :
    (ifElse condition consequence alternative).lower.run supply =
      let first := consequence.lower.run supply
      let second := alternative.lower.run first.2
      (codeOfIfElse condition first.1 second.1 ⟨second.2.allocated⟩
        ⟨second.2.allocated + 1⟩,
        ⟨second.2.allocated + 2⟩) := by
  rw [lower]
  rfl

theorem run_lower_loop (condition : Expr) (body : Stmt) (supply : LabelSupply) :
    (loop condition body).lower.run supply =
      let first := body.lower.run supply
      (codeOfLoop condition first.1 ⟨first.2.allocated⟩ ⟨first.2.allocated + 1⟩,
        ⟨first.2.allocated + 2⟩) := by
  rw [lower]
  rfl

theorem run_lowerAll_cons (first : Stmt) (rest : List Stmt) (supply : LabelSupply) :
    (lowerAll (first :: rest)).run supply =
      let second := (lowerAll rest).run (first.lower.run supply).2
      ((first.lower.run supply).1 ++ second.1, second.2) := by
  rw [lowerAll]
  rfl

mutual

theorem supply_lower (taken : Nat) : (stmt : Stmt) →
    (stmt.lower.run ⟨taken⟩).2 = ⟨taken + stmt.labelCount⟩
  | block body => by
      rw [lower, labelCount]
      exact supply_lowerAll taken body
  | ifThen condition consequence => by
      rw [run_lower_ifThen, labelCount]
      simp only [supply_lower taken consequence, Nat.add_assoc]
  | ifElse condition consequence alternative => by
      rw [run_lower_ifElse, labelCount]
      simp only [supply_lower taken consequence, supply_lower _ alternative,
        Nat.add_assoc]
  | loop condition body => by
      rw [run_lower_loop, labelCount]
      simp only [supply_lower taken body, Nat.add_assoc]
  | print value => by
      rw [lower, labelCount]
      rfl
  | assign target value => by
      rw [lower, labelCount]
      rfl

theorem supply_lowerAll (taken : Nat) : (stmts : List Stmt) →
    ((lowerAll stmts).run ⟨taken⟩).2 = ⟨taken + labelCountAll stmts⟩
  | [] => by
      rw [lowerAll, labelCountAll]
      rfl
  | first :: rest => by
      rw [run_lowerAll_cons, labelCountAll]
      simp only [supply_lower taken first, supply_lowerAll _ rest, Nat.add_assoc]

end

/-! ### The code of each form of statement -/

variable (taken : Nat)

@[simp] theorem code_block (body : List Stmt) :
    code taken (block body) = codeAll taken body := by
  rw [code, lower, codeAll]

@[simp] theorem code_ifThen (condition : Expr) (consequence : Stmt) :
    code taken (ifThen condition consequence) =
      codeOfIf condition (consequence.code taken) ⟨taken + consequence.labelCount⟩ := by
  rw [code, run_lower_ifThen]
  simp only [supply_lower, code]

@[simp] theorem code_ifElse (condition : Expr) (consequence alternative : Stmt) :
    code taken (ifElse condition consequence alternative) =
      codeOfIfElse condition (consequence.code taken)
        (alternative.code (taken + consequence.labelCount))
        ⟨taken + consequence.labelCount + alternative.labelCount⟩
        ⟨taken + consequence.labelCount + alternative.labelCount + 1⟩ := by
  rw [code, run_lower_ifElse]
  simp only [supply_lower, code]

@[simp] theorem code_loop (condition : Expr) (body : Stmt) :
    code taken (loop condition body) =
      codeOfLoop condition (body.code taken) ⟨taken + body.labelCount⟩
        ⟨taken + body.labelCount + 1⟩ := by
  rw [code, run_lower_loop]
  simp only [supply_lower, code]

@[simp] theorem code_print (value : Expr) :
    code taken (print value) = [.print value.fragment] := by
  rw [code, lower]
  rfl

@[simp] theorem code_assign (target : Designator) (value : Expr) :
    code taken (assign target value) =
      [.eval value.fragment, .assign target.render] := by
  rw [code, lower]
  rfl

@[simp] theorem codeAll_nil : codeAll taken [] = [] := by
  rw [codeAll, lowerAll]
  rfl

@[simp] theorem codeAll_cons (first : Stmt) (rest : List Stmt) :
    codeAll taken (first :: rest) =
      first.code taken ++ codeAll (taken + first.labelCount) rest := by
  rw [codeAll, run_lowerAll_cons]
  simp only [supply_lower, code, codeAll]

end Stmt

/-- The code of a program before its labels are numbered anew. -/
def CompilationUnit.rawCode (unit : CompilationUnit) : Code :=
  unit.declarations.map .declare ++ Stmt.codeAll 0 unit.body

theorem CompilationUnit.run_lower (unit : CompilationUnit) :
    unit.lower.run LabelSupply.fresh =
      (unit.rawCode, ⟨Stmt.labelCountAll unit.body⟩) := by
  have lowered : unit.lower.run LabelSupply.fresh =
      (unit.declarations.map .declare ++ ((Stmt.lowerAll unit.body).run ⟨0⟩).1,
        ((Stmt.lowerAll unit.body).run ⟨0⟩).2) := rfl
  rw [lowered, Stmt.supply_lowerAll, Nat.zero_add]
  rfl

end StackCompiler
