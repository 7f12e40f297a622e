import StackCompiler.Proofs.Lowering.Emissions

/-!
# Emission from a supply that has been used

What is emitted with labels of a supply from which some have been taken
differs from what is emitted with labels of a fresh one in nothing but the
numbers of the labels, which are all further on by as many as have been taken
(`Emission.emit_eq_shift`). The canonical form does not show how many these
were, so nothing of what an assembly was used for before is left in the
program that comes next.
-/

namespace StackCompiler

/-- Code that owns its labels has a canonical form. -/
theorem OwnsLabels.linked {code : Code} {first count : Nat}
    (owns : OwnsLabels code first count) : code.Linked :=
  fun _ mentioned => owns.count_definitions (owns.mem_labels_iff.1 mentioned)

namespace Emission

/-- When labels have been taken before, the labels of an emission are
further on by as many. -/
theorem code_eq_relabel (taken : Nat) (emission : Emission) :
    emission.code taken = Code.relabel (Label.shift taken) (emission.code 0) := by
  rw [code, code, Code.relabel_append, Code.relabel_declare, ← Stmt.codeAll_add,
    Nat.zero_add]

/-- The canonical form does not depend on the labels taken before. -/
theorem outcome_canonicalize_code (taken : Nat) (emission : Emission) :
    (Canonical.canonicalize (emission.code taken)).outcome =
      .ok (Code.canonical (emission.code 0)) := by
  have sameForm :
      Code.canonical (emission.code taken) = Code.canonical (emission.code 0) := by
    rw [code_eq_relabel]
    exact Code.canonical_relabel fun _ _ _ _ equal => Label.shift_injective taken equal
  exact Canonical.outcome_canonicalize_eq_ok_iff.2
    ⟨(emission.ownsLabels_code taken).linked, sameForm.symm⟩

/-- What an assembly was used for before moves the labels of what is emitted,
and does nothing else. So a source compiles to the canonical form of its code,
by whatever assembly. -/
theorem emit_eq_shift (emission : Emission) (assembly : Assembly) :
    let taken := assembly.supply.allocated
    let fresh := emission.emit Assembly.empty
    let later := emission.emit assembly
    later.1 = Code.relabel (Label.shift taken) fresh.1 ∧
    later.2.supply.allocated = taken + fresh.2.supply.allocated ∧
    later.2.code = assembly.code ++ later.1 ∧
    (∃ program, (Canonical.canonicalize fresh.1).outcome = .ok program ∧
      (Canonical.canonicalize later.1).outcome = .ok program) ∧
    ∀ source strict compiled, (compile source strict).outcome = .ok compiled →
      ∃ unit, (readUnit source strict).outcome = .ok (unit, compiled.skipped) ∧
        (Canonical.canonicalize (Assembly.emitUnit unit assembly).1).outcome =
          .ok compiled.program.instructions := by
  intro taken fresh later
  have ofFresh : fresh = _ := emission.emit_eq Assembly.empty
  have ofLater : later = _ := emission.emit_eq assembly
  rw [ofFresh, ofLater]
  refine ⟨emission.code_eq_relabel taken, ?_, rfl, ?_, ?_⟩
  · exact congrArg (taken + ·) (Nat.zero_add _).symm
  · exact ⟨_, emission.outcome_canonicalize_code 0,
      emission.outcome_canonicalize_code taken⟩
  · intro source strict compiled compiles
    obtain ⟨program, reads, sameProgram⟩ := readUnit_of_compile compiles
    have emitted : (Assembly.emitUnit program assembly).1 = (unit program).code taken :=
      congrArg Prod.fst ((unit program).emit_eq assembly)
    refine ⟨program, reads, ?_⟩
    rw [emitted, outcome_canonicalize_code, sameProgram]
    rfl

/-- A loop that is emitted when a label has been taken, and that is compiled too. -/
theorem emit_eq_shift_loop :
    let used := (emitAll [.stmt (.ifThen (.number "1") (.block []))] Assembly.empty).2
    let loop : Emission := .stmt (.loop (.number "2") (.print (.number "3")))
    let code : Code :=
      [.label ⟨1⟩, .eval "2", .gotoFalse ⟨2⟩, .print "3", .goto ⟨1⟩, .label ⟨2⟩]
    used.supply = ⟨1⟩ ∧ (loop.emit used).1 = code ∧ (loop.emit used).2.supply = ⟨3⟩ ∧
      (compile "while (2) print 3;" false).outcome = .ok ⟨⟨code⟩, []⟩ ∧
      ∃ unit, (readUnit "while (2) print 3;" false).outcome = .ok (unit, []) ∧
        (Canonical.canonicalize (Assembly.emitUnit unit used).1).outcome =
          .ok code := by
  intro used loop code
  have compiles : (compile "while (2) print 3;" false).outcome = .ok ⟨⟨code⟩, []⟩ := by
    decide +kernel
  obtain ⟨shifted, counted, _, _, leavesNothing⟩ := emit_eq_shift loop used
  exact ⟨rfl, shifted, congrArg LabelSupply.mk counted, compiles,
    leavesNothing _ _ _ compiles⟩

end Emission

end StackCompiler
