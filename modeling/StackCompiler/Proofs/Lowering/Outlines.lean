import StackCompiler.CompilationUnit.Lowering

/-!
# Outlines of statements

An outline is what lowering sees of a statement. Blocks are not in it, since
their statements stand among those around them, and expressions and designators
are there as texts only. Statements are lowered as their outlines are
(`Stmt.lowerAll_outlineAll`).
-/

namespace StackCompiler

/-- A statement without its blocks, and with texts in place of what is evaluated
or assigned to. -/
inductive Outline where
  | ifThen (condition : String) (consequence : List Outline)
  | ifElse (condition : String) (consequence alternative : List Outline)
  | loop (condition : String) (body : List Outline)
  | print (value : String)
  | assign (target value : String)
  deriving Repr

namespace Stmt

mutual

/-- The outlines that a statement leaves among those around it: one, or those of
the statements of a block. -/
def outline : Stmt → List Outline
  | block body => outlineAll body
  | ifThen condition consequence => [.ifThen condition.fragment consequence.outline]
  | ifElse condition consequence alternative =>
    [.ifElse condition.fragment consequence.outline alternative.outline]
  | loop condition body => [.loop condition.fragment body.outline]
  | print value => [.print value.fragment]
  | assign target value => [.assign target.render value.fragment]

/-- The outlines of statements that follow each other. -/
def outlineAll : List Stmt → List Outline
  | [] => []
  | first :: rest => first.outline ++ outlineAll rest

end

theorem outlineAll_append (front back : List Stmt) :
    outlineAll (front ++ back) = outlineAll front ++ outlineAll back := by
  induction front with
  | nil => rw [outlineAll, List.nil_append, List.nil_append]
  | cons first rest ih =>
      rw [List.cons_append, outlineAll, outlineAll, ih, List.append_assoc]

/-- A conditional without an alternative never looks like one with an
alternative, not even an empty one. -/
theorem outlineAll_ifThen_ne_ifElse (front back : List Stmt) (condition : Expr)
    (consequence alternative : Stmt) :
    outlineAll (front ++ .ifThen condition consequence :: back) ≠
      outlineAll (front ++ .ifElse condition consequence alternative :: back) := by
  rw [outlineAll_append, outlineAll_append, outlineAll, outlineAll, outline, outline]
  intro same
  have alike := (List.cons.inj (List.append_cancel_left same)).1
  contradiction

end Stmt

namespace Outline

mutual

/-- The code of a statement with an outline. -/
def lower : Outline → Lowering Code
  | ifThen condition consequence => do
    let code ← lowerAll consequence
    let skip ← LabelSupply.next
    return [.eval condition, .gotoFalse skip] ++ code ++ [.label skip]
  | ifElse condition consequence alternative => do
    let code ← lowerAll consequence
    let otherCode ← lowerAll alternative
    let otherwise ← LabelSupply.next
    let done ← LabelSupply.next
    return [.eval condition, .gotoFalse otherwise] ++ code ++
      [.goto done, .label otherwise] ++ otherCode ++
      [.label done]
  | loop condition body => do
    let code ← lowerAll body
    let head ← LabelSupply.next
    let exit ← LabelSupply.next
    return [.label head, .eval condition, .gotoFalse exit] ++ code ++
      [.goto head, .label exit]
  | print value => return [.print value]
  | assign target value => return [.eval value, .assign target]

/-- The code of statements with some outlines. -/
def lowerAll : List Outline → Lowering Code
  | [] => return []
  | first :: rest => do
    let code ← first.lower
    return code ++ (← lowerAll rest)

end

theorem lowerAll_singleton (outline : Outline) :
    lowerAll [outline] = outline.lower := by
  simp [lowerAll]

theorem lowerAll_append (front back : List Outline) :
    lowerAll (front ++ back) = do
      let code ← lowerAll front
      return code ++ (← lowerAll back) := by
  induction front with
  | nil => simp [lowerAll]
  | cons first rest ih =>
      simp only [List.cons_append, lowerAll, ih, bind_assoc, pure_bind,
        List.append_assoc]

end Outline

namespace Stmt

mutual

/-- The outlines of a statement tell its code. -/
theorem lowerAll_outline : (stmt : Stmt) → Outline.lowerAll stmt.outline = stmt.lower
  | block body => by rw [outline, lower, lowerAll_outlineAll body]
  | ifThen condition consequence => by
      rw [outline, lower, Outline.lowerAll_singleton, Outline.lower,
        lowerAll_outline consequence]
      rfl
  | ifElse condition consequence alternative => by
      rw [outline, lower, Outline.lowerAll_singleton, Outline.lower,
        lowerAll_outline consequence, lowerAll_outline alternative]
      rfl
  | loop condition body => by
      rw [outline, lower, Outline.lowerAll_singleton, Outline.lower,
        lowerAll_outline body]
      rfl
  | print value => by rw [outline, lower, Outline.lowerAll_singleton, Outline.lower]
  | assign target value => by
      rw [outline, lower, Outline.lowerAll_singleton, Outline.lower]

theorem lowerAll_outlineAll :
    (stmts : List Stmt) → Outline.lowerAll (outlineAll stmts) = lowerAll stmts
  | [] => by rw [outlineAll, lowerAll, Outline.lowerAll]
  | first :: rest => by
      rw [outlineAll, lowerAll, Outline.lowerAll_append, lowerAll_outline first,
        lowerAll_outlineAll rest]

end

end Stmt

/-- Programs with the same declarations and the same outlines are lowered alike. -/
theorem CompilationUnit.lower_congr {unit other : CompilationUnit}
    (sameDeclarations : unit.declarations = other.declarations)
    (sameOutlines : Stmt.outlineAll unit.body = Stmt.outlineAll other.body) :
    unit.lower = other.lower := by
  rw [lower, lower, sameDeclarations, ← Stmt.lowerAll_outlineAll, sameOutlines,
    Stmt.lowerAll_outlineAll]

end StackCompiler
