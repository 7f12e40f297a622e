import StackCompiler.Proofs.Code.Linking

/-!
# What canonical code keeps

Code and its canonical form agree position by position, but for the names of
labels. Labels that were the same are the same, labels that were different are
different, and jumps lead to where they led before. Read in the order of their
first mention, the labels of the canonical form are the numbers from one on
(`Canonical.canonicalize_renumbers`).
-/

namespace StackCompiler

namespace Instruction

/-- An instruction without the name of its label. -/
def form (instruction : Instruction) : Instruction := instruction.relabel fun _ => ⟨0⟩

@[simp] theorem form_relabel (rename : Label → Label) (instruction : Instruction) :
    (instruction.relabel rename).form = instruction.form := by
  cases instruction <;> rfl

theorem target?_relabel (rename : Label → Label) (instruction : Instruction) :
    (instruction.relabel rename).target? = instruction.target?.map rename := by
  cases instruction <;> rfl

theorem relabel_of_label?_eq_none {instruction : Instruction}
    (none : instruction.label? = none) (rename : Label → Label) :
    instruction.relabel rename = instruction := by
  cases instruction with
  | label | goto | gotoFalse => contradiction
  | declare | eval | assign | print => rfl

end Instruction

namespace Code

/-- The label that the instruction at a position has. -/
def labelAt? (code : Code) (position : Nat) : Option Label :=
  code[position]?.bind Instruction.label?

/-- The label that the instruction at a position jumps to. -/
def targetAt? (code : Code) (position : Nat) : Option Label :=
  code[position]?.bind Instruction.target?

/-- How code has changed when its labels, and nothing else, have been numbered
from one in the order in which they are mentioned first. -/
structure Renumbered (code new : Code) : Prop where
  length_eq : new.length = code.length
  /-- An instruction without a label has not changed. -/
  unlabelled :
    ∀ (position : Nat) (instruction : Instruction), code[position]? = some instruction →
    instruction.label? = none → new[position]? = some instruction
  /-- An instruction with a label is of the same kind. -/
  form_eq : ∀ position : Nat, new[position]?.map Instruction.form =
    code[position]?.map Instruction.form
  /-- Two instructions have the same label if and only if they had the same label. -/
  labelAt?_eq_iff : ∀ position other : Nat,
    labelAt? new position = labelAt? new other ↔
    labelAt? code position = labelAt? code other
  eraseDups_labels :
    (labels new).eraseDups = (List.range' 1 (labelCount code)).map Label.mk
  /-- Every jump leads to where it led before. -/
  destination :
    ∀ (position : Nat) (target : Label), targetAt? code position = some target →
    ∃ newTarget destination, targetAt? new position = some newTarget ∧
      position? code target = some destination ∧
      position? new newTarget = some destination

/-! ### Renaming -/

variable {rename : Label → Label} {code : Code}

theorem getElem?_relabel (rename : Label → Label) (code : Code) (position : Nat) :
    (relabel rename code)[position]? = code[position]?.map (·.relabel rename) :=
  List.getElem?_map

theorem labelAt?_relabel (rename : Label → Label) (code : Code) (position : Nat) :
    labelAt? (relabel rename code) position = (labelAt? code position).map rename := by
  rw [labelAt?, getElem?_relabel, labelAt?]
  cases code[position]? with
  | none => rfl
  | some instruction => exact instruction.label?_relabel rename

theorem targetAt?_relabel (rename : Label → Label) (code : Code) (position : Nat) :
    targetAt? (relabel rename code) position =
      (targetAt? code position).map rename := by
  rw [targetAt?, getElem?_relabel, targetAt?]
  cases code[position]? with
  | none => rfl
  | some instruction => exact instruction.target?_relabel rename

theorem mem_labels_of_labelAt? {position : Nat} {label : Label}
    (found : labelAt? code position = some label) : label ∈ labels code := by
  obtain ⟨instruction, here, mentioned⟩ := Option.bind_eq_some_iff.1 found
  exact List.mem_filterMap.2 ⟨instruction, List.mem_of_getElem? here, mentioned⟩

theorem mem_targets_of_targetAt? {position : Nat} {target : Label}
    (found : targetAt? code position = some target) : target ∈ targets code := by
  obtain ⟨instruction, here, jumps⟩ := Option.bind_eq_some_iff.1 found
  exact List.mem_filterMap.2 ⟨instruction, List.mem_of_getElem? here, jumps⟩

/-- A renaming that keeps labels apart tells apart the same positions. -/
theorem labelAt?_relabel_eq_iff
    (injective : ∀ left ∈ labels code, ∀ right ∈ labels code,
      rename left = rename right → left = right) (position other : Nat) :
    labelAt? (relabel rename code) position = labelAt? (relabel rename code) other ↔
    labelAt? code position = labelAt? code other := by
  rw [labelAt?_relabel, labelAt?_relabel]
  constructor
  · intro equal
    cases left : labelAt? code position with
    | none =>
        rw [left, Option.map_none, eq_comm, Option.map_eq_none_iff] at equal
        exact equal.symm
    | some label =>
        rw [left, Option.map_some, eq_comm, Option.map_eq_some_iff] at equal
        obtain ⟨otherLabel, right, same⟩ := equal
        rw [right, injective otherLabel (mem_labels_of_labelAt? right) label
          (mem_labels_of_labelAt? left) same]
  · intro equal
    rw [equal]

theorem position?_cons (instruction : Instruction) (code : Code) (label : Label) :
    position? (instruction :: code) label =
      if instruction.defined? = some label then some 0
      else (position? code label).map (· + 1) := by
  rw [position?, List.findIdx?_cons, position?]
  simp only [beq_iff_eq]

/-- A renaming that does not merge a label with others leaves its
definition where it is. -/
theorem position?_relabel {label : Label}
    (apart : ∀ other ∈ labels code, rename other = rename label → other = label) :
    position? (relabel rename code) (rename label) = position? code label := by
  induction code with
  | nil => rfl
  | cons instruction rest ih =>
      have here : (instruction.relabel rename).defined? = some (rename label) ↔
          instruction.defined? = some label := by
        rw [Instruction.defined?_relabel, Option.map_eq_some_iff]
        constructor
        · intro holds
          rcases holds with ⟨other, defined, same⟩
          have mentioned : other ∈ labels (instruction :: rest) := by
            rw [mem_labels_iff, definitions_cons, defined]
            exact .inl List.mem_cons_self
          rw [defined, apart other mentioned same]
        · intro defined
          exact ⟨label, defined, rfl⟩
      have later := ih fun other mentioned =>
        apart other (by rw [labels_cons]; exact List.mem_append_right _ mentioned)
      rw [relabel_cons, position?_cons, position?_cons, later]
      simp only [here]

theorem exists_position?_eq_some (unique : (definitions code).Nodup) {label : Label}
    (defined : label ∈ definitions code) :
    ∃ position, position? code label = some position := by
  obtain ⟨instruction, member, defines⟩ := List.mem_filterMap.1 defined
  obtain ⟨position, here⟩ := List.getElem?_of_mem member
  cases instruction with
  | label name =>
      obtain rfl := Option.some.inj defines
      exact ⟨position, position?_of_definition unique here⟩
  | _ => contradiction

/-! ### Places -/

theorem nodup_eraseDups (labels : List Label) : labels.eraseDups.Nodup := by
  induction labels using List.reverseRecOn with
  | nil => exact List.nodup_nil
  | append_singleton seen label ih =>
      rw [eraseDups_concat]
      split
      next => exact ih
      next fresh =>
        apply ih.append (List.nodup_singleton label)
        simpa using fresh

/-- The places of the labels are the numbers from one on. -/
theorem eraseDups_labels_canonical (code : Code) :
    (labels (canonical code)).eraseDups =
      (List.range' 1 (labelCount code)).map Label.mk := by
  rw [labels_canonical, eraseDups_map_of_injOn (placeOf_injective code)]
  apply List.ext_getElem
  · rw [List.length_map, List.length_map, List.length_range', labelCount]
  · intro place inside _
    rw [List.getElem_map, List.getElem_map, List.getElem_range', placeOf,
      (nodup_eraseDups _).idxOf_getElem, Nat.one_mul, Nat.add_comm]

/-- The canonical form of linked code is the code with its labels numbered. -/
theorem renumbered_canonical (linked : code.Linked) :
    code.Renumbered (canonical code) where
  length_eq := length_relabel _ code
  unlabelled := by
    intro position instruction here none
    rw [canonical, getElem?_relabel, here, Option.map_some,
      Instruction.relabel_of_label?_eq_none none]
  form_eq := by
    intro position
    rw [canonical, getElem?_relabel, Option.map_map]
    congr 1
    funext instruction
    exact instruction.form_relabel _
  labelAt?_eq_iff := labelAt?_relabel_eq_iff (placeOf_injective code)
  eraseDups_labels := eraseDups_labels_canonical code
  destination := by
    intro position target jumps
    obtain ⟨unique, closed⟩ := linked_iff.1 linked
    have mentioned : target ∈ labels code :=
      mem_labels_iff.2 (.inr (mem_targets_of_targetAt? jumps))
    obtain ⟨destination, leads⟩ :=
      exists_position?_eq_some unique (closed target mentioned)
    refine ⟨placeOf code target, destination, ?_, leads, ?_⟩
    · rw [canonical, targetAt?_relabel, jumps, Option.map_some]
    · rw [canonical,
        position?_relabel fun other present same => placeOf_injOn present same, leads]

end Code

namespace Canonical

/-- Code has a canonical form if and only if every label mentioned is defined exactly
once. The form is the code with its labels numbered from one, in the order in which they
are mentioned first. -/
theorem canonicalize_renumbers (code : Code) :
    ((∃ new, (canonicalize code).outcome = .ok new) ↔
      ∀ label ∈ Code.labels code, (Code.definitions code).count label = 1) ∧
    ∀ new, (canonicalize code).outcome = .ok new → code.Renumbered new := by
  constructor
  · constructor
    · intro succeeds
      rcases succeeds with ⟨new, succeeds⟩
      exact (outcome_canonicalize_eq_ok_iff.1 succeeds).1
    · intro linked
      exact ⟨_, outcome_canonicalize_eq_ok_iff.2 ⟨linked, rfl⟩⟩
  · intro new succeeds
    obtain ⟨linked, rfl⟩ := outcome_canonicalize_eq_ok_iff.1 succeeds
    exact Code.renumbered_canonical linked

/-- Labels whose numbers stand in each other's way, one of which no jump names. -/
theorem canonicalize_renumbers_crossed :
    (canonicalize
      [.gotoFalse ⟨2⟩, .goto ⟨40⟩, .label ⟨1⟩, .eval "a", .label ⟨40⟩,
        .label ⟨2⟩]).outcome =
      .ok [.gotoFalse ⟨1⟩, .goto ⟨2⟩, .label ⟨3⟩, .eval "a", .label ⟨2⟩, .label ⟨1⟩] ∧
    Code.Renumbered
      [.gotoFalse ⟨2⟩, .goto ⟨40⟩, .label ⟨1⟩, .eval "a", .label ⟨40⟩, .label ⟨2⟩]
      [.gotoFalse ⟨1⟩, .goto ⟨2⟩, .label ⟨3⟩, .eval "a", .label ⟨2⟩, .label ⟨1⟩] := by
  have succeeds :
      (canonicalize
        [.gotoFalse ⟨2⟩, .goto ⟨40⟩, .label ⟨1⟩, .eval "a", .label ⟨40⟩,
          .label ⟨2⟩]).outcome =
        .ok [.gotoFalse ⟨1⟩, .goto ⟨2⟩, .label ⟨3⟩, .eval "a", .label ⟨2⟩,
          .label ⟨1⟩] := by
    decide +kernel
  exact ⟨succeeds, (canonicalize_renumbers _).2 _ succeeds⟩

end Canonical

end StackCompiler
