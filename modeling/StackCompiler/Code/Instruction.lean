import StackCompiler.Code.Label
import StackCompiler.CompilationUnit.Basic

/-!
# Instructions

The code of the stack machine is a list of instructions. An expression is not
broken up: an instruction holds its fragment as text.
-/

namespace StackCompiler

/-- An instruction of the stack machine. -/
inductive Instruction where
  /-- Provides a variable or an array. -/
  | declare (declaration : Declaration)
  /-- Evaluates a fragment. -/
  | eval (fragment : String)
  /-- Stores the value evaluated last. -/
  | assign (target : String)
  /-- Evaluates a fragment and prints the value. -/
  | print (fragment : String)
  /-- Defines a label. -/
  | label (label : Label)
  /-- Jumps. -/
  | goto (target : Label)
  /-- Jumps if the value evaluated last is false. -/
  | gotoFalse (target : Label)
  deriving DecidableEq, Repr

/-- A program of the stack machine. -/
abbrev Code := List Instruction

/-- The written form of a declaration in code: type, name, and the
dimensions in brackets. -/
def Declaration.render (declaration : Declaration) : String :=
  s!"{declaration.type.render} {declaration.name}" ++
    String.join (declaration.dims.map fun dim => s!"[{dim}]")

namespace Instruction

/-- The label that an instruction defines or jumps to. -/
def label? : Instruction → Option Label
  | label name | goto name | gotoFalse name => some name
  | declare _ | eval _ | assign _ | print _ => none

/-- The label that an instruction defines. -/
def defined? : Instruction → Option Label
  | label name => some name
  | _ => none

/-- The label that an instruction jumps to. -/
def target? : Instruction → Option Label
  | goto name | gotoFalse name => some name
  | _ => none

/-- Whether an instruction defines a label. -/
def isLabel (instruction : Instruction) : Bool := instruction.defined?.isSome

/-- Whether an instruction jumps. -/
def isJump (instruction : Instruction) : Bool := instruction.target?.isSome

/-- The instruction with its label, if it has one, replaced. -/
def relabel (rename : Label → Label) : Instruction → Instruction
  | label name => label (rename name)
  | goto name => goto (rename name)
  | gotoFalse name => gotoFalse (rename name)
  | other => other

/-- The written form of an instruction. -/
def render : Instruction → String
  | declare declaration => declaration.render
  | eval fragment => s!"EVAL {fragment}"
  | assign target => s!"ASS {target}"
  | print fragment => s!"PRINT {fragment}"
  | label name => s!"{name.render}:"
  | goto name => s!"GOTO {name.render}"
  | gotoFalse name => s!"GOTOF {name.render}"

end Instruction

end StackCompiler
