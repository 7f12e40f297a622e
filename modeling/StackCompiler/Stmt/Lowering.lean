import StackCompiler.Code.Instruction

/-!
# Code for statements

A statement is lowered to code that has its parts in the order of their text. A
conditional or a loop is put together when its parts have been lowered, and
only then takes its own labels, so the numbers of labels do not follow the
order of the code.
-/

namespace StackCompiler

/-- Work that takes labels out of a supply. -/
abbrev Lowering := StateM LabelSupply

namespace Stmt

/-- Code that executes one of two parts, or the only one, depending on a condition. -/
def codeOfIf (condition : Expr) (consequence : Code) (skip : Label) : Code :=
  [.eval condition.fragment, .gotoFalse skip] ++ consequence ++ [.label skip]

/-- Code that executes one of two parts, depending on a condition. -/
def codeOfIfElse (condition : Expr) (consequence alternative : Code)
    (otherwise done : Label) : Code :=
  [.eval condition.fragment, .gotoFalse otherwise] ++ consequence ++
    [.goto done, .label otherwise] ++ alternative ++ [.label done]

/-- Code that executes a part as long as a condition is true. -/
def codeOfLoop (condition : Expr) (body : Code) (head exit : Label) : Code :=
  [.label head, .eval condition.fragment, .gotoFalse exit] ++ body ++
    [.goto head, .label exit]

mutual

/-- The code of a statement. -/
def lower : Stmt → Lowering Code
  | block body => lowerAll body
  | ifThen condition consequence => do
    let code ← consequence.lower
    return codeOfIf condition code (← LabelSupply.next)
  | ifElse condition consequence alternative => do
    let code ← consequence.lower
    let otherCode ← alternative.lower
    let otherwise ← LabelSupply.next
    let done ← LabelSupply.next
    return codeOfIfElse condition code otherCode otherwise done
  | loop condition body => do
    let code ← body.lower
    let head ← LabelSupply.next
    let exit ← LabelSupply.next
    return codeOfLoop condition code head exit
  | print value => return [.print value.fragment]
  | assign target value => return [.eval value.fragment, .assign target.render]

/-- The code of statements that follow each other. -/
def lowerAll : List Stmt → Lowering Code
  | [] => return []
  | first :: rest => do
    let code ← first.lower
    return code ++ (← lowerAll rest)

end

end Stmt

end StackCompiler
