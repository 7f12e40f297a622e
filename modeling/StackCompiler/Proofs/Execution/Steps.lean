import StackCompiler.Proofs.Execution.Machine

/-!
# Steps of the machine

What the machine does at each kind of instruction, and how steps make up runs.
The machine is deterministic, so a run that comes to its end passes through
every state that can be reached on the way.
-/

namespace StackCompiler

universe u v

namespace Code

/-- Whether a piece of code stands at a position of some code. -/
def At (code : Code) (position : Nat) (piece : Code) : Prop :=
  ∀ offset instruction, piece[offset]? = some instruction →
    code[position + offset]? = some instruction

theorem at_self (code : Code) : At code 0 code := by
  intro offset instruction found
  rwa [Nat.zero_add]

@[simp] theorem at_nil (code : Code) (position : Nat) : At code position [] := by
  intro offset instruction found
  cases found

@[simp] theorem at_cons {code piece : Code} {position : Nat}
    {instruction : Instruction} :
    At code position (instruction :: piece) ↔
    code[position]? = some instruction ∧ At code (position + 1) piece := by
  constructor
  · intro stands
    refine ⟨stands 0 instruction rfl, ?_⟩
    intro offset other found
    rw [Nat.add_assoc, Nat.add_comm 1]
    exact stands (offset + 1) other found
  · intro holds offset other found
    rcases holds with ⟨here, stands⟩
    cases offset with
    | zero =>
        obtain rfl : instruction = other := by simpa using found
        exact here
    | succ offset =>
        rw [Nat.add_comm offset 1, ← Nat.add_assoc]
        exact stands offset other found

@[simp] theorem at_append {code first second : Code} {position : Nat} :
    At code position (first ++ second) ↔
      At code position first ∧ At code (position + first.length) second := by
  induction first generalizing position with
  | nil => simp
  | cons instruction rest ih =>
      rw [List.cons_append, at_cons, at_cons, ih, List.length_cons, and_assoc,
        Nat.add_assoc, Nat.add_comm 1]

end Code

namespace Interpretation

variable {Store : Type u} {Value : Type v} {interpretation : Interpretation Store Value}
variable {code : Code} {position there : Nat} {accumulator : Option Value}
  {value : Value}
variable {store after : Store} {printed output : List Value} {label : Label}
  {steps : Nat}
variable {state next last : MachineState Store Value}

/-! ### Single steps -/

theorem step_declare {declaration : Declaration}
    (found : code[position]? = some (.declare declaration)) :
    interpretation.step code ⟨position, accumulator, store, printed⟩ =
      some ⟨position + 1, accumulator, store, printed⟩ := by
  simp [step, found, execute, MachineState.advance]

theorem step_label (found : code[position]? = some (.label label)) :
    interpretation.step code ⟨position, accumulator, store, printed⟩ =
      some ⟨position + 1, accumulator, store, printed⟩ := by
  simp [step, found, execute, MachineState.advance]

theorem step_eval {fragment : String}
    (found : code[position]? = some (.eval fragment)) :
    interpretation.step code ⟨position, accumulator, store, printed⟩ =
      some ⟨position + 1, some (interpretation.evaluate fragment store), store,
        printed⟩ := by
  simp [step, found, execute, MachineState.advance]

theorem step_assign {target : String}
    (found : code[position]? = some (.assign target)) :
    interpretation.step code ⟨position, some value, store, printed⟩ =
      some ⟨position + 1, some value, interpretation.update target value store,
        printed⟩ := by
  simp [step, found, execute, MachineState.advance]

theorem step_print {fragment : String}
    (found : code[position]? = some (.print fragment)) :
    interpretation.step code ⟨position, accumulator, store, printed⟩ =
      some ⟨position + 1, accumulator, store,
        printed ++ [interpretation.evaluate fragment store]⟩ := by
  simp [step, found, execute, MachineState.advance]

theorem step_goto (unique : (Code.definitions code).Nodup)
    (found : code[position]? = some (.goto label))
    (target : code[there]? = some (.label label)) :
    interpretation.step code ⟨position, accumulator, store, printed⟩ =
      some ⟨there, accumulator, store, printed⟩ := by
  simp [step, found, execute, MachineState.jump,
    Code.position?_of_definition unique target]

theorem step_gotoFalse_of_true (found : code[position]? = some (.gotoFalse label))
    (holds : interpretation.isTrue value = true) :
    interpretation.step code ⟨position, some value, store, printed⟩ =
      some ⟨position + 1, some value, store, printed⟩ := by
  simp [step, found, execute, MachineState.advance, holds]

theorem step_gotoFalse_of_false (unique : (Code.definitions code).Nodup)
    (found : code[position]? = some (.gotoFalse label))
    (target : code[there]? = some (.label label))
    (fails : interpretation.isTrue value = false) :
    interpretation.step code ⟨position, some value, store, printed⟩ =
      some ⟨there, some value, store, printed⟩ := by
  simp [step, found, execute, MachineState.jump, fails,
    Code.position?_of_definition unique target]

/-! ### Runs -/

variable (interpretation code) in
/-- Whether the machine gets from one state to another. -/
def Reaches (state last : MachineState Store Value) : Prop :=
  ∃ steps, interpretation.run code steps state = some last

theorem Reaches.refl (state : MachineState Store Value) :
    interpretation.Reaches code state state :=
  ⟨0, rfl⟩

theorem Reaches.step (single : interpretation.step code state = some next)
    (reaches : interpretation.Reaches code next last) :
    interpretation.Reaches code state last := by
  obtain ⟨steps, run⟩ := reaches
  refine ⟨steps + 1, ?_⟩
  rw [Interpretation.run, single, Option.bind_some, run]

theorem Reaches.trans (first : interpretation.Reaches code state next)
    (second : interpretation.Reaches code next last) :
    interpretation.Reaches code state last := by
  obtain ⟨steps, run⟩ := first
  induction steps generalizing state with
  | zero =>
      obtain rfl : state = next := by simpa [Interpretation.run] using run
      exact second
  | succ steps ih =>
      rw [Interpretation.run, Option.bind_eq_some_iff] at run
      obtain ⟨between, single, rest⟩ := run
      exact Reaches.step single (ih rest)

/-- A run that comes to its end does so after the first step, if there is a
step to be taken. -/
theorem Finishes.step (single : interpretation.step code state = some next)
    (finishes : interpretation.Finishes code steps state output after) :
    ∃ fewer, steps = fewer + 1 ∧
      interpretation.Finishes code fewer next output after := by
  obtain ⟨last, run, passed, rest⟩ := finishes
  cases steps with
  | zero =>
      obtain rfl : state = last := by simpa [Interpretation.run] using run
      have outside : code[state.position]? = none :=
        List.getElem?_eq_none (Nat.le_of_eq passed.symm)
      rw [Interpretation.step, outside] at single
      cases single
  | succ fewer =>
      rw [Interpretation.run, single, Option.bind_some] at run
      exact ⟨fewer, rfl, last, run, passed, rest⟩

theorem Finishes.of_reaches (reaches : interpretation.Reaches code state next)
    (finishes : interpretation.Finishes code steps state output after) :
    ∃ fewer ≤ steps, interpretation.Finishes code fewer next output after := by
  obtain ⟨taken, run⟩ := reaches
  induction taken generalizing state steps with
  | zero =>
      obtain rfl : state = next := by simpa [Interpretation.run] using run
      exact ⟨steps, Nat.le_refl _, finishes⟩
  | succ taken ih =>
      rw [Interpretation.run, Option.bind_eq_some_iff] at run
      obtain ⟨between, single, rest⟩ := run
      obtain ⟨fewer, rfl, finishesLater⟩ := finishes.step single
      obtain ⟨fewest, le, finishesNext⟩ := ih finishesLater rest
      exact ⟨fewest, Nat.le_succ_of_le le, finishesNext⟩

end Interpretation

end StackCompiler
