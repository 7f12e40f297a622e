import Mathlib.Data.List.Nodup
import StackCompiler.Proofs.Lowering.Equations

/-!
# The labels of lowered code

A statement that is lowered after `taken` labels have been taken owns the labels
from there on: its code defines each of them once and no others, and jumps to
each of them and no others. So nothing outside of the code of a statement can
interfere with the jumps within. Where the statement begins to take labels
decides on the names of the labels, and on nothing else (`Stmt.codeAll_add`).
-/

namespace StackCompiler

namespace Stmt

variable (condition : Expr) (front back : Code) (skip done : Label)

theorem definitions_codeOfIf :
    Code.definitions (codeOfIf condition front skip) =
      Code.definitions front ++ [skip] := by
  simp [codeOfIf, Instruction.defined?]

theorem definitions_codeOfIfElse :
    Code.definitions (codeOfIfElse condition front back skip done) =
      Code.definitions front ++ skip :: (Code.definitions back ++ [done]) := by
  simp [codeOfIfElse, Instruction.defined?]

theorem definitions_codeOfLoop :
    Code.definitions (codeOfLoop condition front skip done) =
      skip :: (Code.definitions front ++ [done]) := by
  simp [codeOfLoop, Instruction.defined?]

theorem targets_codeOfIf :
    Code.targets (codeOfIf condition front skip) = skip :: Code.targets front := by
  simp [codeOfIf, Instruction.target?]

theorem targets_codeOfIfElse :
    Code.targets (codeOfIfElse condition front back skip done) =
      skip :: (Code.targets front ++ done :: Code.targets back) := by
  simp [codeOfIfElse, Instruction.target?]

theorem targets_codeOfLoop :
    Code.targets (codeOfLoop condition front skip done) =
      done :: (Code.targets front ++ [skip]) := by
  simp [codeOfLoop, Instruction.target?]

end Stmt

/-- Code that defines the `count` labels from `first` on, each once, and jumps
to these labels only, and to all of them. -/
structure OwnsLabels (code : Code) (first count : Nat) : Prop where
  definitions_perm :
    (Code.definitions code).Perm ((List.range' first count).map Label.mk)
  mem_targets_iff : ∀ label, label ∈ Code.targets code ↔ label ∈ Code.definitions code

namespace OwnsLabels

variable {code front back : Code} {condition : Expr} {first count more : Nat}

theorem mem_definitions_iff (owns : OwnsLabels code first count) {label : Label} :
    label ∈ Code.definitions code ↔
    first ≤ label.number ∧ label.number < first + count := by
  cases label with
  | mk number =>
      rw [owns.definitions_perm.mem_iff]
      simp [List.mem_range'_1]

theorem mem_labels_iff (owns : OwnsLabels code first count) {label : Label} :
    label ∈ Code.labels code ↔ first ≤ label.number ∧ label.number < first + count := by
  rw [Code.mem_labels_iff, owns.mem_targets_iff, or_self, owns.mem_definitions_iff]

theorem nodup_definitions (owns : OwnsLabels code first count) :
    (Code.definitions code).Nodup := by
  rw [owns.definitions_perm.nodup_iff]
  apply List.Pairwise.map Label.mk ?_ (List.nodup_range' 1)
  intro left right different equal
  exact different (Label.mk.inj equal)

theorem count_definitions (owns : OwnsLabels code first count) {label : Label}
    (inside : first ≤ label.number ∧ label.number < first + count) :
    (Code.definitions code).count label = 1 :=
  List.count_eq_one_of_mem owns.nodup_definitions (owns.mem_definitions_iff.2 inside)

/-- Each label of code that owns its labels is defined there and
jumped to from there. -/
theorem mem_definitions_and_targets (owns : OwnsLabels code first count) {label : Label}
    (mentioned : label ∈ Code.labels code) :
    label ∈ Code.definitions code ∧ label ∈ Code.targets code := by
  have defined := owns.mem_definitions_iff.2 (owns.mem_labels_iff.1 mentioned)
  exact ⟨defined, (owns.mem_targets_iff label).2 defined⟩

theorem nil (first : Nat) : OwnsLabels [] first 0 := ⟨List.Perm.refl _, by simp⟩

theorem append (owns : OwnsLabels front first count)
    (ownsBack : OwnsLabels back (first + count) more) :
    OwnsLabels (front ++ back) first (count + more) where
  definitions_perm := by
    rw [Code.definitions_append, ← List.range'_append_1, List.map_append]
    exact owns.definitions_perm.append ownsBack.definitions_perm
  mem_targets_iff := by
    intro label
    simp only [Code.targets_append, Code.definitions_append, List.mem_append,
      owns.mem_targets_iff, ownsBack.mem_targets_iff]

/-- Wrapping instructions around code that owns labels, some of them with the
labels that come next. -/
theorem wrap {wrapped : Code} (owns : OwnsLabels code first count) (names : List Label)
    (next : names = (List.range' (first + count) more).map Label.mk)
    (definitions : (Code.definitions wrapped).Perm (Code.definitions code ++ names))
    (targets : ∀ label, label ∈ Code.targets wrapped ↔
      label ∈ Code.targets code ∨ label ∈ names) :
    OwnsLabels wrapped first (count + more) where
  definitions_perm := by
    subst next
    rw [← List.range'_append_1, List.map_append]
    exact definitions.trans (owns.definitions_perm.append_right _)
  mem_targets_iff := by
    intro label
    rw [targets, definitions.mem_iff, List.mem_append, owns.mem_targets_iff]

theorem codeOfIf (owns : OwnsLabels code first count) :
    OwnsLabels (Stmt.codeOfIf condition code ⟨first + count⟩) first (count + 1) := by
  apply owns.wrap [⟨first + count⟩] rfl
  · rw [Stmt.definitions_codeOfIf]
  · intro label
    rw [Stmt.targets_codeOfIf, List.mem_cons, List.mem_singleton, or_comm]

theorem codeOfIfElse (owns : OwnsLabels front first count)
    (ownsBack : OwnsLabels back (first + count) more) :
    OwnsLabels (Stmt.codeOfIfElse condition front back ⟨first + count + more⟩
      ⟨first + count + more + 1⟩) first (count + more + 2) := by
  apply (owns.append ownsBack).wrap [⟨first + count + more⟩, ⟨first + count + more + 1⟩]
  · simp [List.range', Nat.add_assoc]
  · rw [Stmt.definitions_codeOfIfElse, Code.definitions_append, List.append_assoc]
    exact List.perm_middle.symm.append_left _
  · intro label
    rw [Stmt.targets_codeOfIfElse, Code.targets_append]
    grind

theorem codeOfLoop (owns : OwnsLabels code first count) :
    OwnsLabels (Stmt.codeOfLoop condition code ⟨first + count⟩ ⟨first + count + 1⟩)
      first (count + 2) := by
  apply owns.wrap [⟨first + count⟩, ⟨first + count + 1⟩]
  · simp [List.range']
  · rw [Stmt.definitions_codeOfLoop]
    exact List.perm_middle.symm
  · intro label
    rw [Stmt.targets_codeOfLoop]
    grind

end OwnsLabels

namespace Stmt

mutual

/-- The code of a statement owns as many labels as the statement takes. -/
theorem ownsLabels_code (taken : Nat) : (stmt : Stmt) →
    OwnsLabels (stmt.code taken) taken stmt.labelCount
  | block body => by
      rw [code_block, labelCount]
      exact ownsLabels_codeAll taken body
  | ifThen condition consequence => by
      rw [code_ifThen, labelCount]
      exact (ownsLabels_code taken consequence).codeOfIf
  | ifElse condition consequence alternative => by
      rw [code_ifElse, labelCount]
      exact (ownsLabels_code taken consequence).codeOfIfElse
        (ownsLabels_code _ alternative)
  | loop condition body => by
      rw [code_loop, labelCount]
      exact (ownsLabels_code taken body).codeOfLoop
  | print value => by
      rw [code_print, labelCount]
      exact ⟨List.Perm.refl _, fun _ => Iff.rfl⟩
  | assign target value => by
      rw [code_assign, labelCount]
      exact ⟨List.Perm.refl _, fun _ => Iff.rfl⟩

theorem ownsLabels_codeAll (taken : Nat) : (stmts : List Stmt) →
    OwnsLabels (codeAll taken stmts) taken (labelCountAll stmts)
  | [] => by
      rw [codeAll_nil, labelCountAll]
      exact OwnsLabels.nil taken
  | first :: rest => by
      rw [codeAll_cons, labelCountAll]
      exact (ownsLabels_code taken first).append (ownsLabels_codeAll _ rest)

end

end Stmt

/-! ### Labels taken before -/

namespace Stmt

section

variable (rename : Label → Label) (condition : Expr) (front back : Code)
  (skip done : Label)

theorem relabel_codeOfIf :
    Code.relabel rename (codeOfIf condition front skip) =
      codeOfIf condition (Code.relabel rename front) (rename skip) := by
  simp [codeOfIf, Instruction.relabel]

theorem relabel_codeOfIfElse :
    Code.relabel rename (codeOfIfElse condition front back skip done) =
      codeOfIfElse condition (Code.relabel rename front) (Code.relabel rename back)
        (rename skip) (rename done) := by
  simp [codeOfIfElse, Instruction.relabel]

theorem relabel_codeOfLoop :
    Code.relabel rename (codeOfLoop condition front skip done) =
      codeOfLoop condition (Code.relabel rename front) (rename skip) (rename done) := by
  simp [codeOfLoop, Instruction.relabel]

end

mutual

/-- When more labels have been taken before, the labels of a statement are
further on by as many. -/
theorem code_add (taken more : Nat) : (stmt : Stmt) →
    stmt.code (taken + more) = Code.relabel (Label.shift more) (stmt.code taken)
  | block body => by
      rw [code_block, code_block]
      exact codeAll_add taken more body
  | ifThen condition consequence => by
      rw [code_ifThen, code_ifThen, relabel_codeOfIf, code_add taken more consequence,
        Nat.add_right_comm]
      rfl
  | ifElse condition consequence alternative => by
      rw [code_ifElse, code_ifElse, relabel_codeOfIfElse, code_add taken more
          consequence, Nat.add_right_comm taken more, code_add _ more alternative,
        Nat.add_right_comm _ more, Nat.add_right_comm _ more]
      rfl
  | loop condition body => by
      rw [code_loop, code_loop, relabel_codeOfLoop, code_add taken more body,
        Nat.add_right_comm taken more, Nat.add_right_comm _ more]
      rfl
  | print value => by
      rw [code_print, code_print]
      rfl
  | assign target value => by
      rw [code_assign, code_assign]
      rfl

theorem codeAll_add (taken more : Nat) : (stmts : List Stmt) →
    codeAll (taken + more) stmts = Code.relabel (Label.shift more) (codeAll taken stmts)
  | [] => by
      rw [codeAll_nil, codeAll_nil]
      rfl
  | first :: rest => by
      rw [codeAll_cons, codeAll_cons, Code.relabel_append, code_add taken more first,
        Nat.add_right_comm taken more, codeAll_add _ more rest]

end

theorem codeAll_append (taken : Nat) (front back : List Stmt) :
    codeAll taken (front ++ back) =
      codeAll taken front ++ codeAll (taken + labelCountAll front) back := by
  induction front generalizing taken with
  | nil =>
      rw [codeAll_nil, labelCountAll]
      rfl
  | cons first rest ih =>
      rw [List.cons_append, codeAll_cons, codeAll_cons, labelCountAll, ih,
        List.append_assoc, Nat.add_assoc]

end Stmt

/-- Declarations have no labels. -/
theorem Code.ownsLabels_declare (declarations : List Declaration) (first : Nat) :
    OwnsLabels (declarations.map .declare) first 0 := by
  induction declarations with
  | nil => exact OwnsLabels.nil first
  | cons declaration rest ih =>
      have owns : OwnsLabels [.declare declaration] first 0 :=
        ⟨List.Perm.refl _, fun _ => Iff.rfl⟩
      exact owns.append ih

theorem Code.labels_declare (declarations : List Declaration) :
    labels (declarations.map .declare) = [] :=
  List.filterMap_eq_nil_iff.2 (List.forall_mem_map.2 fun _ _ => rfl)

/-- Declarations have no labels that could be renamed. -/
theorem Code.relabel_declare (rename : Label → Label)
    (declarations : List Declaration) :
    relabel rename (declarations.map .declare) = declarations.map .declare := by
  rw [relabel, List.map_map]
  rfl

theorem CompilationUnit.ownsLabels_rawCode (unit : CompilationUnit) :
    OwnsLabels unit.rawCode 0 (Stmt.labelCountAll unit.body) := by
  have owns := (Code.ownsLabels_declare unit.declarations 0).append
    (Stmt.ownsLabels_codeAll 0 unit.body)
  rwa [Nat.zero_add] at owns

end StackCompiler
