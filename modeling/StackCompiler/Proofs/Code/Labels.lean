import StackCompiler.Code.Instruction

/-!
# The labels of code

Which labels a piece of code mentions, defines and jumps to, and what becomes of
them when they are renamed. Code that defines every label at most once has a
single position for each of them.
-/

namespace StackCompiler

/-- The label that is `amount` further on. -/
def Label.shift (amount : Nat) (label : Label) : Label := ⟨label.number + amount⟩

theorem Label.shift_injective (amount : Nat) :
    Function.Injective (Label.shift amount) := by
  intro left right equal
  cases left
  cases right
  simpa [Label.shift] using equal

namespace Instruction

theorem label?_relabel (rename : Label → Label) (instruction : Instruction) :
    (instruction.relabel rename).label? = instruction.label?.map rename := by
  cases instruction <;> rfl

theorem defined?_relabel (rename : Label → Label) (instruction : Instruction) :
    (instruction.relabel rename).defined? = instruction.defined?.map rename := by
  cases instruction <;> rfl

theorem relabel_relabel (second first : Label → Label) (instruction : Instruction) :
    (instruction.relabel first).relabel second =
      instruction.relabel (second ∘ first) := by
  cases instruction <;> rfl

/-- Only the name of the label that an instruction has matters for what
it is renamed to. -/
theorem relabel_congr {first second : Label → Label} {instruction : Instruction}
    (agree : ∀ label, instruction.label? = some label → first label = second label) :
    instruction.relabel first = instruction.relabel second := by
  cases instruction with
  | label name | goto name | gotoFalse name => simp only [relabel, agree name rfl]
  | declare | eval | assign | print => rfl

theorem label?_eq_some_iff {instruction : Instruction} {label : Label} :
    instruction.label? = some label ↔
      instruction.defined? = some label ∨ instruction.target? = some label := by
  cases instruction <;> simp [label?, defined?, target?]

end Instruction

namespace Code

/-- The labels that code mentions, in order, each as often as it is mentioned. -/
def labels (code : Code) : List Label := code.filterMap Instruction.label?

/-- The labels that code defines, in order. -/
def definitions (code : Code) : List Label := code.filterMap Instruction.defined?

/-- The labels that code jumps to, in order. -/
def targets (code : Code) : List Label := code.filterMap Instruction.target?

/-- Code with all its labels renamed. -/
def relabel (rename : Label → Label) (code : Code) : Code := code.map (·.relabel rename)

@[simp] theorem labels_nil : labels [] = [] := rfl

@[simp] theorem labels_cons (instruction : Instruction) (code : Code) :
    labels (instruction :: code) = instruction.label?.toList ++ labels code := by
  rw [labels, List.filterMap_cons]
  cases instruction.label? <;> rfl

@[simp] theorem labels_append (first second : Code) :
    labels (first ++ second) = labels first ++ labels second := List.filterMap_append

@[simp] theorem definitions_nil : definitions [] = [] := rfl

@[simp] theorem definitions_cons (instruction : Instruction) (code : Code) :
    definitions (instruction :: code) =
      instruction.defined?.toList ++ definitions code := by
  rw [definitions, List.filterMap_cons]
  cases instruction.defined? <;> rfl

@[simp] theorem definitions_append (first second : Code) :
    definitions (first ++ second) = definitions first ++ definitions second :=
  List.filterMap_append

@[simp] theorem targets_nil : targets [] = [] := rfl

@[simp] theorem targets_cons (instruction : Instruction) (code : Code) :
    targets (instruction :: code) = instruction.target?.toList ++ targets code := by
  rw [targets, List.filterMap_cons]
  cases instruction.target? <;> rfl

@[simp] theorem targets_append (first second : Code) :
    targets (first ++ second) = targets first ++ targets second := List.filterMap_append

@[simp] theorem relabel_nil (rename : Label → Label) : relabel rename [] = [] := rfl

@[simp] theorem relabel_cons (rename : Label → Label) (instruction : Instruction)
    (code : Code) :
    relabel rename (instruction :: code) =
      instruction.relabel rename :: relabel rename code := rfl

@[simp] theorem relabel_append (rename : Label → Label) (first second : Code) :
    relabel rename (first ++ second) = relabel rename first ++ relabel rename second :=
  List.map_append

@[simp] theorem length_relabel (rename : Label → Label) (code : Code) :
    (relabel rename code).length = code.length := List.length_map _

theorem labels_relabel (rename : Label → Label) (code : Code) :
    labels (relabel rename code) = (labels code).map rename := by
  simp only [labels, relabel, List.filterMap_map, List.map_filterMap]
  congr 1
  funext instruction
  exact instruction.label?_relabel rename

theorem definitions_relabel (rename : Label → Label) (code : Code) :
    definitions (relabel rename code) = (definitions code).map rename := by
  simp only [definitions, relabel, List.filterMap_map, List.map_filterMap]
  congr 1
  funext instruction
  exact instruction.defined?_relabel rename

theorem relabel_relabel (second first : Label → Label) (code : Code) :
    relabel second (relabel first code) = relabel (second ∘ first) code := by
  simp only [relabel, List.map_map]
  congr 1
  funext instruction
  exact instruction.relabel_relabel second first

theorem relabel_congr {first second : Label → Label} {code : Code}
    (agree : ∀ label ∈ labels code, first label = second label) :
    relabel first code = relabel second code := by
  apply List.map_congr_left
  intro instruction present
  apply Instruction.relabel_congr
  intro label mentioned
  exact agree label (List.mem_filterMap.2 ⟨instruction, present, mentioned⟩)

theorem mem_labels_iff {code : Code} {label : Label} :
    label ∈ labels code ↔ label ∈ definitions code ∨ label ∈ targets code := by
  simp only [labels, definitions, targets, List.mem_filterMap,
    Instruction.label?_eq_some_iff, and_or_left, exists_or]

/-- The position at which a label is defined first. -/
def position? (code : Code) (label : Label) : Option Nat :=
  code.findIdx? fun instruction => instruction.defined? == some label

/-- Where labels are defined only once, a label is defined at no other
position than its own. -/
theorem position?_of_definition {code : Code} (unique : (definitions code).Nodup)
    {label : Label} {position : Nat} (found : code[position]? = some (.label label)) :
    position? code label = some position := by
  induction code generalizing position with
  | nil => cases found
  | cons first rest ih =>
      cases position with
      | zero =>
          obtain rfl : first = .label label := by simpa using found
          simp [position?, Instruction.defined?, List.findIdx?_cons]
      | succ position =>
          have later : rest[position]? = some (.label label) := by simpa using found
          have defined : label ∈ definitions rest :=
            List.mem_filterMap.2 ⟨_, List.mem_of_getElem? later, rfl⟩
          have other : first.defined? ≠ some label := by
            intro same
            rw [definitions, List.filterMap_cons_some same, List.nodup_cons] at unique
            exact unique.1 defined
          have restUnique : (definitions rest).Nodup :=
            unique.sublist ((List.sublist_cons_self first rest).filterMap _)
          simp [position?, List.findIdx?_cons, other, ← ih restUnique later]

end Code

end StackCompiler
