/-!
# Limits on programs

A program may be nested only so deeply, and an expression may link only so many
operands, so that whatever walks over its tree later needs a bounded stack. A
`Budget` counts what is in use at some moment of reading, and it never counts
beyond the limits.
-/

namespace StackCompiler

/-- The greatest number of statements and operands that may be open
within each other. -/
def maxNesting : Nat := 128

/-- The greatest number of operators that may be linking operands at the same time. -/
def maxChain : Nat := 512

/-- The nesting levels and operator links in use. -/
structure Budget where
  depth : Nat
  chain : Nat
  depth_le : depth ≤ maxNesting
  chain_le : chain ≤ maxChain
  deriving DecidableEq, Repr

namespace Budget

/-- Nothing is in use. -/
def unused : Budget := ⟨0, 0, Nat.zero_le _, Nat.zero_le _⟩

/-- Opens one more nesting level, if the limit allows it. -/
def deepen? (budget : Budget) : Option Budget :=
  if room : budget.depth < maxNesting then
    some { budget with depth := budget.depth + 1, depth_le := room }
  else none

/-- Closes a nesting level. -/
def surface (budget : Budget) : Budget :=
  { budget with
    depth := budget.depth - 1
    depth_le := Nat.le_trans (Nat.sub_le _ _) budget.depth_le }

/-- Uses one more operator link, if the limit allows it. -/
def extend? (budget : Budget) : Option Budget :=
  if room : budget.chain < maxChain then
    some { budget with chain := budget.chain + 1, chain_le := room }
  else none

/-- Gives back a number of operator links. -/
def release (budget : Budget) (links : Nat) : Budget :=
  { budget with
    chain := budget.chain - links
    chain_le := Nat.le_trans (Nat.sub_le _ _) budget.chain_le }

/-- Closing the level just opened leads back. -/
theorem surface_of_deepen? {budget deeper : Budget}
    (opened : budget.deepen? = some deeper) : deeper.surface = budget := by
  unfold deepen? at opened
  split at opened
  · cases opened
    simp [surface]
  · cases opened

end Budget

end StackCompiler
