import StackCompiler.Code.Assembly
import StackCompiler.Proofs.Code.Renaming
import StackCompiler.Proofs.Compiling
import StackCompiler.Proofs.Expr.Words
import StackCompiler.Proofs.Lowering.Outlines

/-!
# Outlines recovered from code

The canonical code of a program tells its declarations and the outlines of its
statements, and nothing else about it
(`CompilationUnit.canonicalize_emitUnit_eq_iff`). A jump over a part of the code
ends where its label is defined, so the part goes up to the first definition of
that label, however many parts lie within. Whether a jump stands before that
definition decides between a conditional with and one without an alternative,
since no code of statements ends in a jump.
-/

namespace StackCompiler

namespace Code

/-- Whether code is made up as outlines say. A label at which a part of the code
ends is not defined in that part; other than that, any labels may be used. -/
inductive Follows : Code → List Outline → Prop where
  | nil : Follows [] []
  | print {value : String} {code : Code} {rest : List Outline} :
      Follows code rest → Follows (.print value :: code) (.print value :: rest)
  | assign {target value : String} {code : Code} {rest : List Outline} :
      Follows code rest →
        Follows (.eval value :: .assign target :: code) (.assign target value :: rest)
  | ifThen {condition : String} {skip : Label} {front back : Code}
      {consequence rest : List Outline} :
      Follows front consequence → .label skip ∉ front → Follows back rest →
      Follows (.eval condition :: .gotoFalse skip :: (front ++ .label skip :: back))
        (.ifThen condition consequence :: rest)
  | ifElse {condition : String} {otherwise done : Label} {front middle back : Code}
      {consequence alternative rest : List Outline} :
      Follows front consequence → .label otherwise ∉ front →
      Follows middle alternative → .label done ∉ middle → Follows back rest →
      Follows
        (.eval condition :: .gotoFalse otherwise ::
          (front ++ [.goto done] ++
            .label otherwise :: (middle ++ .label done :: back)))
        (.ifElse condition consequence alternative :: rest)
  | loop {condition : String} {head exit : Label} {front back : Code}
      {body rest : List Outline} :
      Follows front body → .label exit ∉ front → Follows back rest →
      Follows (.label head :: .eval condition :: .gotoFalse exit ::
          (front ++ [.goto head] ++ .label exit :: back))
        (.loop condition body :: rest)

theorem getLast?_cons_ne {first last : Instruction} {back : Code}
    (different : first ≠ last) (ends : back.getLast? ≠ some last) :
    (first :: back).getLast? ≠ some last := by
  rw [List.getLast?_cons]
  cases found : back.getLast? with
  | none => simpa using different
  | some other => simpa [found] using ends

theorem label_not_mem_concat_goto {label target : Label} {front : Code}
    (absent : .label label ∉ front) : .label label ∉ front ++ [.goto target] := by
  simpa using absent

/-- A part that a jump leaves goes up to the first definition of the label
behind the jump. -/
theorem eq_of_goto_label {label first second : Label}
    {front otherFront back otherBack : Code} (absent : .label label ∉ front)
    (absentToo : .label label ∉ otherFront)
    (same : front ++ [.goto first] ++ .label label :: back =
      otherFront ++ [.goto second] ++ .label label :: otherBack) :
    front = otherFront ∧ first = second ∧ back = otherBack := by
  obtain ⟨sameFront, sameBack⟩ := eq_of_append_cons (label_not_mem_concat_goto absent)
    (label_not_mem_concat_goto absentToo) same
  obtain ⟨sameFront, sameJump⟩ := List.append_inj' sameFront rfl
  exact ⟨sameFront, Instruction.goto.inj (List.singleton_inj.1 sameJump), sameBack⟩

theorem label_not_mem_relabel {rename : Label → Label}
    (injective : Function.Injective rename) {label : Label} {code : Code}
    (absent : .label label ∉ code) : .label (rename label) ∉ relabel rename code := by
  intro member
  obtain ⟨instruction, present, renamed⟩ := List.mem_map.1 member
  cases instruction with
  | label name =>
      rw [Instruction.relabel, Instruction.label.injEq] at renamed
      obtain rfl := injective renamed
      exact absent present
  | declare | eval | assign | print | goto | gotoFalse => contradiction

namespace Follows

variable {code other : Code} {outlines others : List Outline}

theorem append (follows : Follows code outlines) (followsToo : Follows other others) :
    Follows (code ++ other) (outlines ++ others) := by
  induction follows with
  | nil => exact followsToo
  | print _ ih => exact .print ih
  | assign _ ih => exact .assign ih
  | ifThen consequence absent _ _ ih =>
      rw [List.cons_append, List.cons_append, List.append_assoc]
      exact .ifThen consequence absent ih
  | @ifElse _ _ _ _ middle _ _ _ _ consequence absent alternative absentToo _ _ _ ih =>
      rw [List.cons_append, List.cons_append, List.append_assoc, List.cons_append,
        List.append_assoc middle]
      exact .ifElse consequence absent alternative absentToo ih
  | loop body absent _ _ ih =>
      rw [List.cons_append, List.cons_append, List.cons_append, List.append_assoc]
      exact .loop body absent ih

/-- Which labels are used is of no importance. -/
theorem relabel (follows : Follows code outlines) {rename : Label → Label}
    (injective : Function.Injective rename) :
    Follows (Code.relabel rename code) outlines := by
  induction follows with
  | nil => exact .nil
  | print _ ih => exact .print ih
  | assign _ ih => exact .assign ih
  | ifThen _ absent _ ihConsequence ih =>
      simp only [relabel_cons, relabel_append]
      exact .ifThen ihConsequence (label_not_mem_relabel injective absent) ih
  | ifElse _ absent _ absentToo _ ihConsequence ihAlternative ih =>
      simp only [relabel_cons, relabel_append]
      exact .ifElse ihConsequence (label_not_mem_relabel injective absent) ihAlternative
        (label_not_mem_relabel injective absentToo) ih
  | loop _ absent _ ihBody ih =>
      simp only [relabel_cons, relabel_append]
      exact .loop ihBody (label_not_mem_relabel injective absent) ih

/-- No code of statements ends in a jump. -/
theorem getLast?_ne_goto (follows : Follows code outlines) (target : Label) :
    code.getLast? ≠ some (.goto target) := by
  induction follows with
  | nil => simp
  | print _ ih => exact getLast?_cons_ne (by simp) ih
  | assign _ ih => exact getLast?_cons_ne (by simp) (getLast?_cons_ne (by simp) ih)
  | ifThen _ _ _ _ ih =>
      rw [← List.cons_append, ← List.cons_append, List.getLast?_append_cons]
      exact getLast?_cons_ne (by simp) ih
  | ifElse _ _ _ _ _ _ _ ih =>
      rw [← List.cons_append, ← List.cons_append, List.getLast?_append_cons,
        ← List.cons_append, List.getLast?_append_cons]
      exact getLast?_cons_ne (by simp) ih
  | loop _ _ _ _ ih =>
      rw [← List.cons_append, ← List.cons_append, ← List.cons_append,
        List.getLast?_append_cons]
      exact getLast?_cons_ne (by simp) ih

/-- What stands before the first definition of a label does not both make up
statements and end in a jump. -/
theorem append_label_ne {front otherFront back otherBack : Code} {label target : Label}
    (follows : Follows front outlines) (absent : .label label ∉ front)
    (absentToo : .label label ∉ otherFront) :
    front ++ .label label :: back ≠
      otherFront ++ [.goto target] ++ .label label :: otherBack := by
  intro same
  obtain ⟨rfl, _⟩ := eq_of_append_cons absent (label_not_mem_concat_goto absentToo) same
  exact follows.getLast?_ne_goto target List.getLast?_concat

/-- Code follows one list of outlines at most. -/
theorem unique (follows : Follows code outlines) (followsToo : Follows code others) :
    outlines = others := by
  induction follows generalizing others with
  | nil =>
      cases followsToo
      rfl
  | print _ ih =>
      cases followsToo with
      | print rest => rw [ih rest]
  | assign _ ih =>
      cases followsToo with
      | assign rest => rw [ih rest]
  | @ifThen _ skip front back _ _ consequence absent _ ihConsequence ihRest =>
      -- The two readings agree on the first instructions only; where the parts
      -- end has to be found.
      generalize same : front ++ .label skip :: back = tail at followsToo
      cases followsToo with
      | ifThen otherConsequence otherAbsent otherRest =>
          obtain ⟨rfl, rfl⟩ := eq_of_append_cons absent otherAbsent same
          rw [ihConsequence otherConsequence, ihRest otherRest]
      | ifElse _ otherAbsent _ _ _ =>
          exact absurd same (consequence.append_label_ne absent otherAbsent)
  | @ifElse _ otherwise done front middle back _ _ _ _ absent _ absentToo
      _ ihConsequence ihAlternative
      ihRest =>
      generalize same : front ++ [.goto done] ++ .label otherwise ::
          (middle ++ .label done :: back) = tail
        at followsToo
      cases followsToo with
      | ifThen otherConsequence otherAbsent _ =>
          exact absurd same.symm (otherConsequence.append_label_ne otherAbsent absent)
      | ifElse otherConsequence otherAbsent otherAlternative otherAbsentToo otherRest =>
          obtain ⟨rfl, rfl, sameBack⟩ := eq_of_goto_label absent otherAbsent same
          obtain ⟨rfl, rfl⟩ := eq_of_append_cons absentToo otherAbsentToo sameBack
          rw [ihConsequence otherConsequence, ihAlternative otherAlternative,
            ihRest otherRest]
  | @loop _ head exit front back _ _ _ absent _ ihBody ihRest =>
      generalize same :
        front ++ [.goto head] ++ .label exit :: back = tail at followsToo
      cases followsToo with
      | loop otherBody otherAbsent otherRest =>
          obtain ⟨rfl, _, rfl⟩ := eq_of_goto_label absent otherAbsent same
          rw [ihBody otherBody, ihRest otherRest]

/-- Declarations come to an end where code of statements begins. -/
theorem declare_append_inj {declarations otherDeclarations : List Declaration}
    (follows : Follows code outlines) (followsToo : Follows other others)
    (same : declarations.map .declare ++ code =
      otherDeclarations.map .declare ++ other) :
    declarations = otherDeclarations ∧ code = other := by
  induction declarations generalizing otherDeclarations with
  | nil =>
      cases otherDeclarations with
      | nil => exact ⟨rfl, same⟩
      | cons declaration rest =>
          rw [List.map_nil, List.nil_append] at same
          subst same
          cases follows
  | cons declaration rest ih =>
      cases otherDeclarations with
      | nil =>
          rw [List.map_nil, List.nil_append] at same
          subst same
          cases followsToo
      | cons otherDeclaration otherRest =>
          rw [List.map_cons, List.map_cons, List.cons_append, List.cons_append,
            List.cons.injEq, Instruction.declare.injEq] at same
          obtain ⟨rfl, same⟩ := same
          obtain ⟨rfl, sameCode⟩ := ih same
          exact ⟨rfl, sameCode⟩

end Follows

end Code

/-- Labels that have not been taken yet are not defined. -/
theorem OwnsLabels.label_not_mem {code : Code} {first count : Nat}
    (owns : OwnsLabels code first count) {label : Label}
    (beyond : first + count ≤ label.number) : .label label ∉ code := by
  intro member
  have defined : label ∈ Code.definitions code := List.mem_filterMap.2 ⟨_, member, rfl⟩
  exact Nat.not_lt.2 beyond (owns.mem_definitions_iff.1 defined).2

namespace Stmt

theorem codeOfIfElse_eq (condition : Expr) (front back : Code)
    (otherwise done : Label) :
    codeOfIfElse condition front back otherwise done =
      .eval condition.fragment :: .gotoFalse otherwise ::
        (front ++ [.goto done] ++ .label otherwise :: (back ++ [.label done])) := by
  simp [codeOfIfElse]

theorem codeOfLoop_eq (condition : Expr) (front : Code) (head exit : Label) :
    codeOfLoop condition front head exit =
      .label head :: .eval condition.fragment :: .gotoFalse exit ::
        (front ++ [.goto head] ++ [.label exit]) := by
  simp [codeOfLoop]

mutual

/-- Statements are lowered to code that follows their outlines. -/
theorem follows_code (taken : Nat) :
    (stmt : Stmt) → Code.Follows (stmt.code taken) stmt.outline
  | block body => by
      rw [code_block, outline]
      exact follows_codeAll taken body
  | ifThen condition consequence => by
      have owns := ownsLabels_code taken consequence
      rw [code_ifThen, outline, codeOfIf, List.append_assoc]
      exact .ifThen (follows_code taken consequence)
        (owns.label_not_mem (Nat.le_refl _)) .nil
  | ifElse condition consequence alternative => by
      have owns := ownsLabels_code taken consequence
      have ownsToo := ownsLabels_code (taken + consequence.labelCount) alternative
      rw [code_ifElse, outline, codeOfIfElse_eq]
      exact .ifElse (follows_code taken consequence)
        (owns.label_not_mem (Nat.le_add_right _ _))
        (follows_code _ alternative) (ownsToo.label_not_mem (Nat.le_succ _)) .nil
  | loop condition body => by
      have owns := ownsLabels_code taken body
      rw [code_loop, outline, codeOfLoop_eq]
      exact .loop (follows_code taken body) (owns.label_not_mem (Nat.le_succ _)) .nil
  | print value => by
      rw [code_print, outline]
      exact .print .nil
  | assign target value => by
      rw [code_assign, outline]
      exact .assign .nil

theorem follows_codeAll (taken : Nat) :
    (stmts : List Stmt) → Code.Follows (codeAll taken stmts) (outlineAll stmts)
  | [] => by
      rw [codeAll_nil, outlineAll]
      exact .nil
  | first :: rest => by
      rw [codeAll_cons, outlineAll]
      exact (follows_code taken first).append (follows_codeAll _ rest)

end

end Stmt

namespace CompilationUnit

theorem relabel_rawCode (rename : Label → Label) (unit : CompilationUnit) :
    Code.relabel rename unit.rawCode = unit.declarations.map .declare ++
        Code.relabel rename (Stmt.codeAll 0 unit.body) := by
  rw [rawCode, Code.relabel_append, Code.relabel_declare]

/-- Code with the same canonical form is that of the same declarations and outlines. -/
theorem outlines_eq_of_code_eq {unit other : CompilationUnit}
    (same : unit.code = other.code) :
    unit.declarations = other.declarations ∧
    Stmt.outlineAll unit.body = Stmt.outlineAll other.body := by
  obtain ⟨rename, apart, renamed⟩ := Code.exists_renaming_of_canonical_eq same
  obtain ⟨extended, injective, agrees⟩ := exists_injective_of_injOn apart
  rw [← Code.relabel_congr agrees, relabel_rawCode, rawCode] at renamed
  have follows := (Stmt.follows_codeAll 0 unit.body).relabel injective
  have followsToo := Stmt.follows_codeAll 0 other.body
  obtain ⟨sameDeclarations, sameCode⟩ := followsToo.declare_append_inj follows renamed
  rw [sameCode] at followsToo
  exact ⟨sameDeclarations.symm, follows.unique followsToo⟩

/-- Emission forgets the braces of blocks and nothing else: programs have the
same canonical code if and only if their declarations and the outlines of their
statements are the same. -/
theorem canonicalize_emitUnit_eq_iff (unit other : CompilationUnit) :
    (∃ code otherCode,
      (Canonical.canonicalize (Assembly.emitUnit unit Assembly.empty).1).outcome =
        .ok code ∧
      (Canonical.canonicalize (Assembly.emitUnit other Assembly.empty).1).outcome =
        .ok otherCode ∧
      (code = otherCode ↔
        unit.declarations = other.declarations ∧
        Stmt.outlineAll unit.body = Stmt.outlineAll other.body)) ∧
    ∀ front back condition consequence alternative,
      Stmt.outlineAll (front ++ .ifThen condition consequence :: back) ≠
      Stmt.outlineAll (front ++ .ifElse condition consequence alternative :: back) := by
  have emitted (program : CompilationUnit) :
      (Assembly.emitUnit program Assembly.empty).1 = program.rawCode :=
    congrArg Prod.fst program.run_lower
  refine ⟨⟨unit.code, other.code, ?_, ?_, ?_⟩, Stmt.outlineAll_ifThen_ne_ifElse⟩
  · rw [emitted]
    exact unit.outcome_canonicalize
  · rw [emitted]
    exact other.outcome_canonicalize
  · constructor
    · exact outlines_eq_of_code_eq
    · rintro ⟨sameDeclarations, sameOutlines⟩
      have sameRun : unit.rawCode = other.rawCode := by
        rw [← emitted, Assembly.emitUnit, lower_congr sameDeclarations sameOutlines]
        exact emitted other
      rw [code, code, sameRun]

end CompilationUnit

end StackCompiler
