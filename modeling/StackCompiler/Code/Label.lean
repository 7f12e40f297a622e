/-!
# Labels

A label is a place in code that jumps can name. Labels are numbered; a
`LabelSupply` hands out one number after the other, so that no label
is handed out twice.
-/

namespace StackCompiler

/-- The target of a jump. -/
structure Label where
  number : Nat
  deriving DecidableEq, Repr

/-- The written form of a label. -/
def Label.render (label : Label) : String := s!"L{label.number}"

/-- A supply of labels, of which those below `allocated` are taken. -/
structure LabelSupply where
  allocated : Nat
  deriving DecidableEq, Repr

namespace LabelSupply

/-- A supply from which nothing has been taken. -/
def fresh : LabelSupply := ⟨0⟩

/-- Takes the next label out of the supply. -/
def next : StateM LabelSupply Label := do
  let supply ← get
  set (LabelSupply.mk (supply.allocated + 1))
  return ⟨supply.allocated⟩

end LabelSupply

end StackCompiler
