import StackCompiler.Proofs.Lowering.Labels

/-!
# The code of the statements within a statement

While a statement is lowered, the statements within it are, each with
the labels that are left at that time. The code of every one of them
stands undivided in the code of the whole, and no jump from elsewhere
leads into it (`Stmt.Lowers.encloses`): the labels that it owns are
taken by nothing around it.
-/

namespace StackCompiler

/-- Whether a fragment stands in code such that no jump from elsewhere in the
code leads into it. -/
def Code.Encloses (code fragment : Code) : Prop :=
  ∃ before after, code = before ++ (fragment ++ after) ∧
    ∀ label ∈ Code.labels fragment, label ∉ Code.targets before ∧
      label ∉ Code.targets after

namespace Code.Encloses

variable {code middle fragment : Code}

theorem refl (code : Code) : Encloses code code := ⟨[], [], by simp, by simp⟩

theorem trans (outer : Encloses code middle) (inner : Encloses middle fragment) :
    Encloses code fragment := by
  obtain ⟨before, after, rfl, apart⟩ := outer
  obtain ⟨nearBefore, nearAfter, rfl, nearApart⟩ := inner
  refine ⟨before ++ nearBefore, nearAfter ++ after, by simp, ?_⟩
  intro label mentioned
  have farther := apart label (by simp [mentioned])
  have nearer := nearApart label mentioned
  simp only [targets_append, List.mem_append, not_or]
  exact ⟨⟨farther.1, nearer.1⟩, nearer.2, farther.2⟩

end Code.Encloses

namespace OwnsLabels

variable {code front middle back : Code} {condition : Expr}
  {first count more rest : Nat}

/-- Code is enclosed by whatever jumps to labels before or after its own only. -/
theorem encloses (owns : OwnsLabels code first count) (before after : Code)
    (outside : ∀ label ∈ Code.targets (before ++ after),
      label.number < first ∨ first + count ≤ label.number) :
    Code.Encloses (before ++ (code ++ after)) code := by
  refine ⟨before, after, rfl, ?_⟩
  intro label mentioned
  have inside := owns.mem_labels_iff.1 mentioned
  rw [← not_or, ← List.mem_append, ← Code.targets_append]
  intro jumps
  have elsewhere := outside label jumps
  omega

theorem mem_targets_bounds (owns : OwnsLabels code first count) {label : Label}
    (jumps : label ∈ Code.targets code) :
    first ≤ label.number ∧ label.number < first + count :=
  owns.mem_definitions_iff.1 ((owns.mem_targets_iff label).1 jumps)

theorem encloses_append (ownsFront : OwnsLabels front first count)
    (owns : OwnsLabels middle (first + count) more)
    (ownsBack : OwnsLabels back (first + count + more) rest) :
    Code.Encloses (front ++ (middle ++ back)) middle := by
  apply owns.encloses
  intro label jumps
  rw [Code.targets_append, List.mem_append] at jumps
  rcases jumps with early | late
  · exact .inl (ownsFront.mem_targets_bounds early).2
  · exact .inr (ownsBack.mem_targets_bounds late).1

theorem encloses_codeOfIf (owns : OwnsLabels code first count) :
    Code.Encloses (Stmt.codeOfIf condition code ⟨first + count⟩) code := by
  rw [Stmt.codeOfIf, List.append_assoc]
  apply owns.encloses
  simp [Instruction.target?]

theorem encloses_codeOfIfElse_consequence (owns : OwnsLabels front first count)
    (ownsBack : OwnsLabels back (first + count) more) :
    Code.Encloses (Stmt.codeOfIfElse condition front back ⟨first + count + more⟩
      ⟨first + count + more + 1⟩) front := by
  rw [Stmt.codeOfIfElse, List.append_assoc, List.append_assoc, List.append_assoc]
  apply owns.encloses
  intro label jumps
  have around : label = ⟨first + count + more⟩ ∨ label = ⟨first + count + more + 1⟩ ∨
      label ∈ Code.targets back := by
    simpa [Instruction.target?] using jumps
  rcases around with rfl | rfl | later
  · exact .inr (Nat.le_add_right _ _)
  · exact .inr (Nat.le_add_right _ (more + 1))
  · exact .inr (ownsBack.mem_targets_bounds later).1

theorem encloses_codeOfIfElse_alternative (owns : OwnsLabels front first count)
    (ownsBack : OwnsLabels back (first + count) more) :
    Code.Encloses (Stmt.codeOfIfElse condition front back ⟨first + count + more⟩
      ⟨first + count + more + 1⟩) back := by
  rw [Stmt.codeOfIfElse, List.append_assoc]
  apply ownsBack.encloses
  intro label jumps
  have around : label = ⟨first + count + more⟩ ∨ label ∈ Code.targets front ∨
      label = ⟨first + count + more + 1⟩ := by
    simpa [Instruction.target?] using jumps
  rcases around with rfl | earlier | rfl
  · exact .inr (Nat.le_refl _)
  · exact .inl (owns.mem_targets_bounds earlier).2
  · exact .inr (Nat.le_add_right _ 1)

theorem encloses_codeOfLoop (owns : OwnsLabels code first count) :
    Code.Encloses
      (Stmt.codeOfLoop condition code ⟨first + count⟩ ⟨first + count + 1⟩) code := by
  rw [Stmt.codeOfLoop, List.append_assoc]
  apply owns.encloses
  simp [Instruction.target?]

end OwnsLabels

namespace Stmt

/-- Whether `inner` is lowered with the labels of the supply `given` while
`outer` is lowered with those of another supply. -/
inductive Lowers (inner : Stmt) (given : LabelSupply) :
    (outer : Stmt) → (supply : LabelSupply) → Prop where
  | self : Lowers inner given inner given
  | block {front back : List Stmt} {part : Stmt} {supply : LabelSupply} :
      Lowers inner given part ((lowerAll front).run supply).2 →
      Lowers inner given (.block (front ++ part :: back)) supply
  | ifThen {condition : Expr} {consequence : Stmt} {supply : LabelSupply} :
      Lowers inner given consequence supply →
        Lowers inner given (.ifThen condition consequence) supply
  | consequence {condition : Expr} {consequence alternative : Stmt}
      {supply : LabelSupply} :
      Lowers inner given consequence supply →
      Lowers inner given (.ifElse condition consequence alternative) supply
  | alternative {condition : Expr} {consequence alternative : Stmt}
      {supply : LabelSupply} :
      Lowers inner given alternative (consequence.lower.run supply).2 →
      Lowers inner given (.ifElse condition consequence alternative) supply
  | loop {condition : Expr} {body : Stmt} {supply : LabelSupply} :
      Lowers inner given body supply → Lowers inner given (.loop condition body) supply

/-- Among statements that follow each other, every one has labels of its own. -/
theorem encloses_codeAll (taken : Nat) (front : List Stmt) (part : Stmt)
    (back : List Stmt) :
    Code.Encloses (codeAll taken (front ++ part :: back))
      (part.code (taken + labelCountAll front)) := by
  rw [codeAll_append, codeAll_cons]
  exact (ownsLabels_codeAll taken front).encloses_append (ownsLabels_code _ part)
    (ownsLabels_codeAll _ back)

/-- The code of a statement encloses that of every statement within. -/
theorem Lowers.encloses {inner outer : Stmt} {given supply : LabelSupply}
    (lowers : Lowers inner given outer supply) :
    Code.Encloses (outer.lower.run supply).1 (inner.lower.run given).1 := by
  induction lowers with
  | self => exact Code.Encloses.refl _
  | @block front back part supply _ ih =>
      refine Code.Encloses.trans ?_ ih
      change Code.Encloses (code supply.allocated (.block (front ++ part :: back))) _
      rw [supply_lowerAll, code_block]
      exact encloses_codeAll supply.allocated front part back
  | @ifThen condition consequence supply _ ih =>
      refine Code.Encloses.trans ?_ ih
      change Code.Encloses (code supply.allocated (.ifThen condition consequence)) _
      rw [code_ifThen]
      exact (ownsLabels_code supply.allocated consequence).encloses_codeOfIf
  | @consequence condition consequence alternative supply _ ih =>
      refine Code.Encloses.trans ?_ ih
      change Code.Encloses
        (code supply.allocated (.ifElse condition consequence alternative)) _
      rw [code_ifElse]
      exact (ownsLabels_code supply.allocated
        consequence).encloses_codeOfIfElse_consequence
        (ownsLabels_code _ alternative)
  | @alternative condition consequence alternative supply _ ih =>
      refine Code.Encloses.trans ?_ ih
      change Code.Encloses
        (code supply.allocated (.ifElse condition consequence alternative)) _
      rw [supply_lower, code_ifElse]
      exact (ownsLabels_code supply.allocated
        consequence).encloses_codeOfIfElse_alternative
        (ownsLabels_code _ alternative)
  | @loop condition body supply _ ih =>
      refine Code.Encloses.trans ?_ ih
      change Code.Encloses (code supply.allocated (.loop condition body)) _
      rw [code_loop]
      exact (ownsLabels_code supply.allocated body).encloses_codeOfLoop

end Stmt

end StackCompiler
