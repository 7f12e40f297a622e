import StackCompiler.CompilationUnit.Basic

/-!
# What statements do

The meaning of a program, for any meaning of its fragments. An `Interpretation`
says what the text of a fragment evaluates to in a store, which values count as
true, and how assigning to a designator changes a store. The meaning of a
statement relates the store before, the values printed, and the store after;
where no store after is related, the statement does not come to an end.
-/

namespace StackCompiler

universe u v

/-- A meaning of the fragments and designators that code holds as text. -/
structure Interpretation (Store : Type u) (Value : Type v) where
  evaluate : (fragment : String) → Store → Value
  isTrue : Value → Bool
  update : (target : String) → Value → Store → Store

variable {Store : Type u} {Value : Type v}

/-- What is done by repeating `body` as long as a condition is true. -/
inductive Iterates (interpretation : Interpretation Store Value) (condition : String)
    (body : Store → List Value → Store → Prop) : Store → List Value → Store → Prop where
  | done {store : Store} :
      interpretation.isTrue (interpretation.evaluate condition store) = false →
      Iterates interpretation condition body store [] store
  | again {before between after : Store} {output later : List Value} :
      interpretation.isTrue (interpretation.evaluate condition before) = true →
      body before output between →
      Iterates interpretation condition body between later after →
      Iterates interpretation condition body before (output ++ later) after

namespace Stmt

variable (interpretation : Interpretation Store Value)

mutual

/-- The runs of a statement: the store before, the values printed, and
the store after. -/
def Executes : Stmt → Store → List Value → Store → Prop
  | block body, before, output, after => ExecutesAll body before output after
  | ifThen condition consequence, before, output, after =>
    if interpretation.isTrue (interpretation.evaluate condition.fragment before) then
      Executes consequence before output after
    else output = [] ∧ after = before
  | ifElse condition consequence alternative, before, output, after =>
    if interpretation.isTrue (interpretation.evaluate condition.fragment before) then
      Executes consequence before output after
    else Executes alternative before output after
  | loop condition body, before, output, after =>
    Iterates interpretation condition.fragment (Executes body) before output after
  | print value, before, output, after =>
    output = [interpretation.evaluate value.fragment before] ∧ after = before
  | assign target value, before, output, after =>
    output = [] ∧
      after = interpretation.update target.render
        (interpretation.evaluate value.fragment before) before

/-- The runs of statements that are executed one after the other. -/
def ExecutesAll : List Stmt → Store → List Value → Store → Prop
  | [], before, output, after => output = [] ∧ after = before
  | first :: rest, before, output, after =>
    ∃ between early late, output = early ++ late ∧
      Executes first before early between ∧ ExecutesAll rest between late after

end

end Stmt

end StackCompiler
