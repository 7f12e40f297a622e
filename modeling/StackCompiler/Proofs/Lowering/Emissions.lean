import StackCompiler.Code.Assembly
import StackCompiler.Proofs.Code.Linking
import StackCompiler.Proofs.Faults
import StackCompiler.Proofs.Lowering.Fragments

/-!
# The labels of an assembly

Programs and statements that are lowered one after the other, with labels from
one supply, do not interfere: the labels in their code are just those that were
taken, each is defined once, and no jump leads into the code of a statement from
elsewhere (`emitAll_labels`). How many labels that takes can be told from the
forms of the statements.
-/

namespace StackCompiler

/-! ### Counting -/

namespace Stmt

mutual

/-- A statement and all statements within it. -/
def parts : Stmt → List Stmt
  | block body => block body :: partsAll body
  | ifThen condition consequence => ifThen condition consequence :: consequence.parts
  | ifElse condition consequence alternative =>
    ifElse condition consequence alternative :: (consequence.parts ++ alternative.parts)
  | loop condition body => loop condition body :: body.parts
  | print value => [print value]
  | assign target value => [assign target value]

/-- Some statements and all statements within them. -/
def partsAll : List Stmt → List Stmt
  | [] => []
  | first :: rest => first.parts ++ partsAll rest

end

/-- Whether a statement is a conditional without an alternative. -/
def isIfThen : Stmt → Bool
  | ifThen .. => true
  | _ => false

/-- Whether a statement is a conditional with an alternative. -/
def isIfElse : Stmt → Bool
  | ifElse .. => true
  | _ => false

/-- Whether a statement is a loop. -/
def isLoop : Stmt → Bool
  | loop .. => true
  | _ => false

mutual

/-- One label for every conditional without an alternative, two for every one
with an alternative, and two for every loop. -/
theorem labelCount_eq :
    (stmt : Stmt) → stmt.labelCount = stmt.parts.countP isIfThen + 2 *
        stmt.parts.countP isIfElse + 2 * stmt.parts.countP isLoop
  | block body => by
      rw [labelCount, labelCountAll_eq body]
      simp [parts, isIfThen, isIfElse, isLoop]
  | ifThen condition consequence => by
      rw [labelCount, labelCount_eq consequence]
      simp [parts, List.countP_cons, isIfThen, isIfElse, isLoop]
      omega
  | ifElse condition consequence alternative => by
      rw [labelCount, labelCount_eq consequence, labelCount_eq alternative]
      simp [parts, List.countP_cons, isIfThen, isIfElse, isLoop]
      omega
  | loop condition body => by
      rw [labelCount, labelCount_eq body]
      simp [parts, List.countP_cons, isIfThen, isIfElse, isLoop]
      omega
  | print value => by
      rw [labelCount]
      simp [parts, isIfThen, isIfElse, isLoop]
  | assign target value => by
      rw [labelCount]
      simp [parts, isIfThen, isIfElse, isLoop]

theorem labelCountAll_eq : (stmts : List Stmt) → labelCountAll stmts =
    (partsAll stmts).countP isIfThen + 2 * (partsAll stmts).countP isIfElse +
      2 * (partsAll stmts).countP isLoop
  | [] => by
      rw [labelCountAll]
      simp [partsAll]
  | first :: rest => by
      rw [labelCountAll, labelCount_eq first, labelCountAll_eq rest]
      simp [partsAll]
      omega

end

theorem labelCountAll_append (front back : List Stmt) :
    labelCountAll (front ++ back) = labelCountAll front + labelCountAll back := by
  induction front with
  | nil => rw [List.nil_append, labelCountAll, Nat.zero_add]
  | cons first rest ih =>
      rw [List.cons_append, labelCountAll, labelCountAll, ih, Nat.add_assoc]

end Stmt

/-! ### Emitting -/

/-- Something of which the code is appended to an assembly. -/
inductive Emission where
  | unit (unit : CompilationUnit)
  | stmt (stmt : Stmt)

namespace Emission

/-- Appends the code, and shows it. -/
def emit : Emission → Assembly → Code × Assembly
  | unit program => Assembly.emitUnit program
  | stmt statement => Assembly.emitStmt statement

/-- Appends the code of several emissions, one after the other, and
shows that of each. -/
def emitAll : List Emission → Assembly → List Code × Assembly
  | [], assembly => ([], assembly)
  | first :: rest, assembly =>
    let (code, between) := first.emit assembly
    let (codes, after) := emitAll rest between
    (code :: codes, after)

/-- What is declared. -/
def declarations : Emission → List Declaration
  | unit program => program.declarations
  | stmt _ => []

/-- The statements that are lowered, one after the other. -/
def body : Emission → List Stmt
  | unit program => program.body
  | stmt statement => [statement]

/-- Whether a statement is lowered with the labels of the supply `given` while
the code of an emission, with those of another supply, is appended. -/
def Lowers (inner : Stmt) (given : LabelSupply) (emission : Emission)
    (supply : LabelSupply) : Prop :=
  ∃ front part back, emission.body = front ++ part :: back ∧
    Stmt.Lowers inner given part ((Stmt.lowerAll front).run supply).2

/-- The code of an emission when `taken` labels have been taken. -/
def code (taken : Nat) (emission : Emission) : Code :=
  emission.declarations.map .declare ++ Stmt.codeAll taken emission.body

/-- The number of labels that an emission takes. -/
def labelCount (emission : Emission) : Nat := Stmt.labelCountAll emission.body

theorem emit_eq (emission : Emission) (assembly : Assembly) :
    emission.emit assembly =
      (emission.code assembly.supply.allocated,
        ⟨⟨assembly.supply.allocated + emission.labelCount⟩,
          assembly.code ++ emission.code assembly.supply.allocated⟩) := by
  cases emission with
  | unit program =>
      have appended : emit (.unit program) assembly =
          ((unit program).code assembly.supply.allocated,
            ⟨((Stmt.lowerAll program.body).run assembly.supply).2,
              assembly.code ++ (unit program).code assembly.supply.allocated⟩) := rfl
      have supplied := Stmt.supply_lowerAll assembly.supply.allocated program.body
      rw [appended, supplied]
      rfl
  | stmt statement =>
      have appended : emit (.stmt statement) assembly =
          (statement.code assembly.supply.allocated,
            ⟨(statement.lower.run assembly.supply).2,
              assembly.code ++ statement.code assembly.supply.allocated⟩) := rfl
      have supplied := Stmt.supply_lower assembly.supply.allocated statement
      have alone : (stmt statement).code assembly.supply.allocated =
          statement.code assembly.supply.allocated := by
        simp [code, declarations, body]
      rw [appended, supplied, alone, labelCount, body, Stmt.labelCountAll,
        Stmt.labelCountAll, Nat.add_zero]

theorem ownsLabels_code (taken : Nat) (emission : Emission) :
    OwnsLabels (emission.code taken) taken emission.labelCount := by
  have owns := (Code.ownsLabels_declare emission.declarations taken).append
    (Stmt.ownsLabels_codeAll taken emission.body)
  rwa [Nat.zero_add] at owns

/-- The code of an emission encloses that of every statement that is lowered for it. -/
theorem Lowers.encloses {inner : Stmt} {given supply : LabelSupply}
    {emission : Emission} (lowers : emission.Lowers inner given supply) :
    Code.Encloses (emission.code supply.allocated) (inner.lower.run given).1 := by
  obtain ⟨front, part, back, split, lowers⟩ := lowers
  rw [Stmt.supply_lowerAll supply.allocated front] at lowers
  refine Code.Encloses.trans ?_ lowers.encloses
  refine Code.Encloses.trans ?_ (Stmt.encloses_codeAll supply.allocated front part back)
  have declares := Code.ownsLabels_declare emission.declarations supply.allocated
  have encloses := declares.encloses_append (Stmt.ownsLabels_codeAll _ emission.body)
    (OwnsLabels.nil _)
  rw [List.append_nil, Nat.add_zero, split] at encloses
  rw [code, split]
  exact encloses

/-- The labels that some emissions take are those of their statements. -/
theorem supply_emitAll (emissions : List Emission) (assembly : Assembly) :
    (emitAll emissions assembly).2.supply =
      ⟨assembly.supply.allocated + Stmt.labelCountAll (emissions.flatMap body)⟩ := by
  induction emissions generalizing assembly with
  | nil => rfl
  | cons first rest ih =>
      rw [emitAll, emit_eq, List.flatMap_cons, Stmt.labelCountAll_append,
          ← Nat.add_assoc]
      exact ih _

theorem ownsLabels_emitAll (emissions : List Emission) (assembly : Assembly) :
    OwnsLabels (emitAll emissions assembly).1.flatten assembly.supply.allocated
      (Stmt.labelCountAll (emissions.flatMap body)) := by
  induction emissions generalizing assembly with
  | nil => exact OwnsLabels.nil _
  | cons first rest ih =>
      rw [emitAll, emit_eq, List.flatMap_cons, Stmt.labelCountAll_append]
      exact (first.ownsLabels_code assembly.supply.allocated).append (ih _)

theorem allocated_emitAll_empty (emissions : List Emission) :
    (emitAll emissions Assembly.empty).2.supply.allocated =
      Stmt.labelCountAll (emissions.flatMap body) := by
  rw [supply_emitAll]
  exact Nat.zero_add _

theorem ownsLabels_emitAll_empty (emissions : List Emission) :
    OwnsLabels (emitAll emissions Assembly.empty).1.flatten 0
      (emitAll emissions Assembly.empty).2.supply.allocated := by
  rw [allocated_emitAll_empty]
  exact ownsLabels_emitAll emissions Assembly.empty

theorem emitAll_append (front back : List Emission) (assembly : Assembly) :
    (emitAll (front ++ back) assembly).1 =
      (emitAll front assembly).1 ++ (emitAll back (emitAll front assembly).2).1 := by
  induction front generalizing assembly with
  | nil => rfl
  | cons first rest ih => exact congrArg (_ :: ·) (ih _)

/-- What is emitted encloses the code of every statement that is lowered on the way. -/
theorem encloses_emitAll {front back : List Emission} {emission : Emission}
    {assembly : Assembly} {inner : Stmt} {given : LabelSupply}
    (lowers : emission.Lowers inner given (emitAll front assembly).2.supply) :
    Code.Encloses (emitAll (front ++ emission :: back) assembly).1.flatten
      (inner.lower.run given).1 := by
  refine Code.Encloses.trans ?_ lowers.encloses
  have owns := ownsLabels_emitAll front assembly
  rw [emitAll_append, emitAll, emit_eq, List.flatten_append, List.flatten_cons,
    supply_emitAll]
  exact owns.encloses_append (emission.ownsLabels_code _) (ownsLabels_emitAll back _)

/-- What holds of the labels in the code of some emissions, for which
`allocated` labels have been taken. -/
structure Labelled (emissions : List Emission) (code : Code)
    (allocated : Nat) : Prop where
  /-- The labels in the code are those that were taken. -/
  mentioned : ∀ label, label ∈ Code.labels code ↔ label.number < allocated
  defined : ∀ label : Label, label.number < allocated →
    (Code.definitions code).count label = 1
  /-- No jump leads into the code of a statement that is lowered, or out of it. -/
  closed : ∀ front emission back inner given, emissions = front ++ emission :: back →
    Lowers inner given emission (emitAll front Assembly.empty).2.supply →
    let fragment := (inner.lower.run given).1
    code.Encloses fragment ∧
    ∀ label ∈ Code.labels fragment, label ∈ Code.definitions fragment ∧
      label ∈ Code.targets fragment
  /-- One label is taken for a conditional, and another one for its alternative.
  Two are taken for a loop. -/
  counted : allocated =
    (Stmt.partsAll (emissions.flatMap body)).countP Stmt.isIfThen +
      2 * (Stmt.partsAll (emissions.flatMap body)).countP Stmt.isIfElse +
      2 * (Stmt.partsAll (emissions.flatMap body)).countP Stmt.isLoop
  /-- The code has a canonical form. -/
  canonical : ∃ new, (Canonical.canonicalize code).outcome = .ok new

/-- Labels are used in order, whatever is emitted from an empty assembly. So no
source fails to compile on account of a label. -/
theorem emitAll_labels (emissions : List Emission) :
    let emitted := emitAll emissions Assembly.empty
    Labelled emissions emitted.1.flatten emitted.2.supply.allocated ∧
    ∀ source strict label,
      (compile source strict).outcome ≠ .error (.undefinedLabel label) ∧
      (compile source strict).outcome ≠ .error (.duplicateLabel label) := by
  intro emitted
  have owns : OwnsLabels emitted.1.flatten 0 emitted.2.supply.allocated :=
    ownsLabels_emitAll_empty emissions
  have mentioned (label : Label) :
      label ∈ Code.labels emitted.1.flatten ↔
          label.number < emitted.2.supply.allocated := by
    rw [owns.mem_labels_iff, Nat.zero_add, and_iff_right (Nat.zero_le _)]
  have defined (label : Label) (below : label.number < emitted.2.supply.allocated) :
      (Code.definitions emitted.1.flatten).count label = 1 := by
    apply owns.count_definitions
    rw [Nat.zero_add]
    exact ⟨Nat.zero_le _, below⟩
  constructor
  · constructor
    case mentioned => exact mentioned
    case defined => exact defined
    case closed =>
      rintro front emission back inner given rfl lowers fragment
      have ownsFragment := Stmt.ownsLabels_code given.allocated inner
      exact ⟨encloses_emitAll lowers,
        fun label => ownsFragment.mem_definitions_and_targets⟩
    case counted =>
      rw [← Stmt.labelCountAll_eq]
      exact allocated_emitAll_empty emissions
    case canonical =>
      have linked : Code.Linked emitted.1.flatten :=
        fun label isIn => defined label ((mentioned label).1 isIn)
      exact ⟨_, Canonical.outcome_canonicalize_eq_ok_iff.2 ⟨linked, rfl⟩⟩
  · intro source strict label
    exact ⟨compile_ne_undefinedLabel source strict label,
      compile_ne_duplicateLabel source strict label⟩

/-- A conditional within a loop that is emitted for the second time. -/
theorem emitAll_labels_again :
    let inner : Stmt := .ifThen (.number "1") (.block [])
    let emission : Emission := .stmt (.loop (.number "2") inner)
    let code : Code := (emitAll [emission, emission] Assembly.empty).1.flatten
    Lowers inner ⟨3⟩ emission (emitAll [emission] Assembly.empty).2.supply ∧
      code.Encloses [.eval "1", .gotoFalse ⟨3⟩, .label ⟨3⟩] ∧
          (Code.definitions code).count ⟨3⟩ = 1 := by
  intro inner emission code
  have supply : (emitAll [emission] Assembly.empty).2.supply = ⟨3⟩ := rfl
  have lowers :
      Lowers inner ⟨3⟩ emission (emitAll [emission] Assembly.empty).2.supply := by
    rw [supply]
    exact ⟨[], _, [], rfl, .loop .self⟩
  have fragment : (inner.lower.run ⟨3⟩).1 = [.eval "1", .gotoFalse ⟨3⟩, .label ⟨3⟩] :=
    rfl
  obtain ⟨labelled, _⟩ := emitAll_labels [emission, emission]
  have encloses := (labelled.closed [emission] emission [] inner ⟨3⟩ rfl lowers).1
  rw [fragment] at encloses
  exact ⟨lowers, encloses, labelled.defined ⟨3⟩ (by decide)⟩

end Emission

end StackCompiler
