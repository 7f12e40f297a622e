import StackCompiler.Proofs.Code.Labels
import StackCompiler.Proofs.Execution.Structured

/-!
# The stack machine

The machine executes instructions one after the other, from the first on, unless
a jump takes it to the position that defines a label. It remembers the value
evaluated last. A run has come to its end when the machine has passed the last
instruction; where an instruction cannot be executed, for want of a value or of
the label to jump to, the machine is stuck for good.
-/

namespace StackCompiler

universe u v

/-- Where the machine stands. -/
structure MachineState (Store : Type u) (Value : Type v) where
  /-- The position of the next instruction. -/
  position : Nat
  /-- The value evaluated last. -/
  accumulator : Option Value
  store : Store
  /-- The values printed so far. -/
  output : List Value

variable {Store : Type u} {Value : Type v}

namespace MachineState

/-- Goes on to the next instruction. -/
def advance (state : MachineState Store Value) : MachineState Store Value :=
  { state with position := state.position + 1 }

/-- Goes on at the position that defines a label. -/
def jump (code : Code) (label : Label) (state : MachineState Store Value) :
    Option (MachineState Store Value) :=
  (Code.position? code label).map fun position => { state with position }

end MachineState

namespace Interpretation

variable (interpretation : Interpretation Store Value) (code : Code)

/-- Executes an instruction. -/
def execute (state : MachineState Store Value) :
    Instruction → Option (MachineState Store Value)
  | .declare _ => some state.advance
  | .label _ => some state.advance
  | .eval fragment =>
    some { state.advance with
      accumulator := some (interpretation.evaluate fragment state.store) }
  | .assign target =>
    state.accumulator.map fun value =>
      { state.advance with store := interpretation.update target value state.store }
  | .print fragment =>
    some { state.advance with
      output := state.output ++ [interpretation.evaluate fragment state.store] }
  | .goto target => state.jump code target
  | .gotoFalse target =>
    state.accumulator.bind fun value =>
      if interpretation.isTrue value then some state.advance else state.jump code target

/-- Executes the next instruction, if there is one and it can be executed. -/
def step (state : MachineState Store Value) : Option (MachineState Store Value) :=
  code[state.position]?.bind (interpretation.execute code state)

/-- Executes a number of instructions. -/
def run : Nat → MachineState Store Value → Option (MachineState Store Value)
  | 0, state => some state
  | steps + 1, state => (interpretation.step code state).bind (run steps)

/-- Whether a run of the machine from `state` on passes the last instruction
after some number of steps, with the given output and store. -/
def Finishes (steps : Nat) (state : MachineState Store Value) (output : List Value)
    (after : Store) : Prop :=
  ∃ last, interpretation.run code steps state = some last ∧
    last.position = code.length ∧ last.output = output ∧ last.store = after

/-- Whether the machine, started at the first instruction, passes the last one
with the given output and store. What the accumulator holds at first is of no
importance to lowered code, so nothing is assumed about it. -/
def Halts (accumulator : Option Value) (before : Store) (output : List Value)
    (after : Store) : Prop :=
  ∃ steps, interpretation.Finishes code steps ⟨0, accumulator, before, []⟩ output after

end Interpretation

end StackCompiler
