import StackCompiler.Proofs.Execution.Steps
import StackCompiler.Proofs.Lowering.Equations

/-!
# Code that does what is asked

A piece of code realises a relation between stores, if the machine, wherever it
comes upon the piece, behaves as the relation says: it gets through the piece
for every related pair of stores, and it does not come to its end in any other
way than through the piece. The control structures of lowered code realise what
they stand for as soon as their parts do. Nothing is asked of the labels but
that no label is defined twice in the code as a whole.
-/

namespace StackCompiler

universe u v

variable {Store : Type u} {Value : Type v}

namespace Stmt

variable (position : Nat) (condition : Expr) (front back : Code) (skip done : Label)

theorem add_length_codeOfIf :
    position + (codeOfIf condition front skip).length =
      position + 2 + front.length + 1 := by
  simp only [codeOfIf, List.length_append, List.length_cons, List.length_nil]
  omega

theorem add_length_codeOfIfElse :
    position + (codeOfIfElse condition front back skip done).length =
      position + 2 + front.length + 2 + back.length + 1 := by
  simp only [codeOfIfElse, List.length_append, List.length_cons, List.length_nil]
  omega

theorem add_length_codeOfLoop :
    position + (codeOfLoop condition front skip done).length =
      position + 1 + 2 + front.length + 1 + 1 := by
  simp only [codeOfLoop, List.length_append, List.length_cons, List.length_nil]
  omega

end Stmt

/-- Whether a piece of code does what `runs` says, wherever it stands in some code. -/
structure Realises (interpretation : Interpretation Store Value) (code piece : Code)
    (runs : Store → List Value → Store → Prop) : Prop where
  /-- Every run is carried out. -/
  reaches : ∀ {position before output after}, Code.At code position piece →
    runs before output after → ∀ accumulator printed, ∃ leftover,
      interpretation.Reaches code ⟨position, accumulator, before, printed⟩
        ⟨position + piece.length, leftover, after, printed ++ output⟩
  /-- Whatever comes to its end has carried out a run. -/
  passes : ∀ {position steps accumulator before printed total last},
    Code.At code position piece →
    interpretation.Finishes code steps
      ⟨position, accumulator, before, printed⟩ total last →
    ∃ fewer ≤ steps, ∃ leftover output after, runs before output after ∧
      interpretation.Finishes code fewer
        ⟨position + piece.length, leftover, after, printed ++ output⟩ total last

namespace Realises

variable {interpretation : Interpretation Store Value} {code piece otherPiece : Code}
variable {runs otherRuns : Store → List Value → Store → Prop}

/-- Code that the machine gets through in one way only. -/
theorem of_reaches (output : Store → List Value) (after : Store → Store)
    (through : ∀ position accumulator before printed, Code.At code position piece →
      ∃ leftover,
        interpretation.Reaches code ⟨position, accumulator, before, printed⟩
          ⟨position + piece.length, leftover, after before, printed ++ output before⟩) :
    Realises interpretation code piece fun before values store =>
        values = output before ∧ store = after before where
  reaches := by
    intro position before _ _ stands executed accumulator printed
    rcases executed with ⟨rfl, rfl⟩
    exact through position accumulator before printed stands
  passes := by
    intro position steps accumulator before printed total last stands finishes
    obtain ⟨leftover, reaches⟩ := through position accumulator before printed stands
    obtain ⟨fewer, le, rest⟩ := finishes.of_reaches reaches
    exact ⟨fewer, le, leftover, output before, after before, ⟨rfl, rfl⟩, rest⟩

theorem congr (realises : Realises interpretation code piece runs)
    (same : ∀ before output after, runs before output after ↔
      otherRuns before output after) :
    Realises interpretation code piece otherRuns where
  reaches := by
    intro position before output after stands executes
    exact realises.reaches stands ((same before output after).2 executes)
  passes := by
    intro position steps accumulator before printed total last stands finishes
    obtain ⟨fewer, le, leftover, output, after, executes, outside⟩ :=
      realises.passes stands finishes
    exact ⟨fewer, le, leftover, output, after,
      (same before output after).1 executes, outside⟩

theorem nil : Realises interpretation code [] fun before output after =>
    output = [] ∧ after = before := by
  apply of_reaches (fun _ => []) id
  intro position accumulator before printed _
  refine ⟨accumulator, ?_⟩
  rw [List.append_nil]
  exact .refl _

theorem declare (declaration : Declaration) :
    Realises interpretation code [.declare declaration] fun before output after =>
      output = [] ∧ after = before := by
  apply of_reaches (fun _ => []) id
  intro position accumulator before printed stands
  refine ⟨accumulator, ?_⟩
  rw [List.append_nil]
  exact .step (Interpretation.step_declare (Code.at_cons.1 stands).1) (.refl _)

theorem print (fragment : String) :
    Realises interpretation code [.print fragment] fun before output after =>
      output = [interpretation.evaluate fragment before] ∧ after = before := by
  apply of_reaches (fun before => [interpretation.evaluate fragment before]) id
  intro position accumulator before printed stands
  refine ⟨accumulator, ?_⟩
  exact .step (Interpretation.step_print (Code.at_cons.1 stands).1) (.refl _)

theorem assign (fragment target : String) :
    Realises interpretation code [.eval fragment, .assign target]
      fun before output after => output = [] ∧
        after = interpretation.update target
          (interpretation.evaluate fragment before) before := by
  apply of_reaches (fun _ => []) fun before =>
    interpretation.update target (interpretation.evaluate fragment before) before
  intro position accumulator before printed stands
  rw [Code.at_cons, Code.at_cons] at stands
  obtain ⟨evalHere, assignHere, _⟩ := stands
  refine ⟨some (interpretation.evaluate fragment before), ?_⟩
  rw [List.append_nil]
  exact .step (Interpretation.step_eval evalHere)
    (.step (Interpretation.step_assign assignHere) (.refl _))

/-- Pieces of code that stand side by side are carried out one after the other. -/
theorem append (first : Realises interpretation code piece runs)
    (second : Realises interpretation code otherPiece otherRuns) :
    Realises interpretation code (piece ++ otherPiece) fun before output after =>
      ∃ between early late, output = early ++ late ∧ runs before early between ∧
        otherRuns between late after where
  reaches := by
    intro position before _ after stands executed accumulator printed
    rcases executed with ⟨between, early, late, rfl, runsEarly, runsLate⟩
    obtain ⟨standsFirst, standsSecond⟩ := Code.at_append.1 stands
    obtain ⟨middle, reachesFirst⟩ :=
      first.reaches standsFirst runsEarly accumulator printed
    obtain ⟨leftover, reachesSecond⟩ :=
      second.reaches standsSecond runsLate middle (printed ++ early)
    refine ⟨leftover, ?_⟩
    rw [List.length_append, ← Nat.add_assoc, ← List.append_assoc]
    exact reachesFirst.trans reachesSecond
  passes := by
    intro position steps accumulator before printed total last stands finishes
    obtain ⟨standsFirst, standsSecond⟩ := Code.at_append.1 stands
    obtain ⟨fewer, le, middle, early, between, runsEarly, finishesFirst⟩ :=
      first.passes standsFirst finishes
    obtain ⟨fewest, leFewer, leftover, late, after, runsLate, finishesSecond⟩ :=
      second.passes standsSecond finishesFirst
    refine ⟨fewest, Nat.le_trans leFewer le, leftover, early ++ late, after,
      ⟨between, early, late, rfl, runsEarly, runsLate⟩, ?_⟩
    rw [List.length_append, ← Nat.add_assoc, ← List.append_assoc]
    exact finishesSecond

/-! ### Control structures -/

variable {position : Nat} {accumulator : Option Value} {store : Store}
  {printed : List Value}

theorem reaches_of_true {fragment : String} {skip : Label}
    (evalHere : code[position]? = some (.eval fragment))
    (jumpHere : code[position + 1]? = some (.gotoFalse skip))
    (holds : interpretation.isTrue (interpretation.evaluate fragment store) = true) :
    interpretation.Reaches code ⟨position, accumulator, store, printed⟩
      ⟨position + 2, some (interpretation.evaluate fragment store), store, printed⟩ :=
  .step (Interpretation.step_eval evalHere)
    (.step (Interpretation.step_gotoFalse_of_true jumpHere holds) (.refl _))

theorem reaches_of_false (unique : (Code.definitions code).Nodup) {fragment : String}
    {skip : Label} {there : Nat} (evalHere : code[position]? = some (.eval fragment))
    (jumpHere : code[position + 1]? = some (.gotoFalse skip))
    (labelThere : code[there]? = some (.label skip))
    (fails : interpretation.isTrue (interpretation.evaluate fragment store) = false) :
    interpretation.Reaches code ⟨position, accumulator, store, printed⟩
      ⟨there + 1, some (interpretation.evaluate fragment store), store, printed⟩ :=
  .step (Interpretation.step_eval evalHere)
    (.step (Interpretation.step_gotoFalse_of_false unique jumpHere labelThere fails)
      (.step (Interpretation.step_label labelThere) (.refl _)))

theorem at_codeOfIf {condition : Expr} {skip : Label} :
    Code.At code position (Stmt.codeOfIf condition piece skip) ↔
      code[position]? = some (.eval condition.fragment) ∧
      code[position + 1]? = some (.gotoFalse skip) ∧
      Code.At code (position + 2) piece ∧
      code[position + 2 + piece.length]? = some (.label skip) := by
  simp [Stmt.codeOfIf]

theorem at_codeOfIfElse {condition : Expr} {otherwise done : Label} :
    Code.At code position
      (Stmt.codeOfIfElse condition piece otherPiece otherwise done) ↔
    code[position]? = some (.eval condition.fragment) ∧
    code[position + 1]? = some (.gotoFalse otherwise) ∧
    Code.At code (position + 2) piece ∧
    code[position + 2 + piece.length]? = some (.goto done) ∧
    code[position + 2 + piece.length + 1]? = some (.label otherwise) ∧
    Code.At code (position + 2 + piece.length + 2) otherPiece ∧
    code[position + 2 + piece.length + 2 + otherPiece.length]? =
      some (.label done) := by
  simp [Stmt.codeOfIfElse, Nat.add_assoc]

theorem at_codeOfLoop {condition : Expr} {head exit : Label} :
    Code.At code position (Stmt.codeOfLoop condition piece head exit) ↔
      code[position]? = some (.label head) ∧
      code[position + 1]? = some (.eval condition.fragment) ∧
      code[position + 1 + 1]? = some (.gotoFalse exit) ∧
      Code.At code (position + 1 + 2) piece ∧
      code[position + 1 + 2 + piece.length]? = some (.goto head) ∧
      code[position + 1 + 2 + piece.length + 1]? = some (.label exit) := by
  simp [Stmt.codeOfLoop, Nat.add_assoc]

theorem codeOfIf (unique : (Code.definitions code).Nodup) {condition : Expr}
    {skip : Label}
    (consequence : Realises interpretation code piece runs) :
    Realises interpretation code (Stmt.codeOfIf condition piece skip)
      fun before output after =>
      if interpretation.isTrue (interpretation.evaluate condition.fragment before) then
        runs before output after
      else output = [] ∧ after = before where
  reaches := by
    intro position before output after stands executes accumulator printed
    obtain ⟨evalHere, jumpHere, standsInside, labelThere⟩ := at_codeOfIf.1 stands
    rw [Stmt.add_length_codeOfIf]
    split at executes
    next holds =>
      obtain ⟨leftover, reaches⟩ := consequence.reaches standsInside executes _ printed
      exact ⟨leftover, (reaches_of_true evalHere jumpHere holds).trans
        (reaches.trans (.step (Interpretation.step_label labelThere) (.refl _)))⟩
    next fails =>
      obtain ⟨rfl, rfl⟩ := executes
      rw [Bool.not_eq_true] at fails
      rw [List.append_nil]
      exact ⟨_, reaches_of_false unique evalHere jumpHere labelThere fails⟩
  passes := by
    intro position steps accumulator before printed total last stands finishes
    obtain ⟨evalHere, jumpHere, standsInside, labelThere⟩ := at_codeOfIf.1 stands
    rw [Stmt.add_length_codeOfIf]
    cases test :
      interpretation.isTrue (interpretation.evaluate condition.fragment before) with
    | true =>
        obtain ⟨fewer, le, inside⟩ :=
          finishes.of_reaches (reaches_of_true evalHere jumpHere test)
        obtain ⟨fewest, leFewer, leftover, output, after, executes, outside⟩ :=
          consequence.passes standsInside inside
        obtain ⟨least, rfl, finishesLater⟩ :=
          outside.step (Interpretation.step_label labelThere)
        refine ⟨least, by omega, leftover, output, after, ?_, finishesLater⟩
        rwa [if_pos rfl]
    | false =>
        obtain ⟨fewer, le, outside⟩ :=
          finishes.of_reaches
            (reaches_of_false unique evalHere jumpHere labelThere test)
        refine ⟨fewer, le, _, [], before, ?_, by rwa [List.append_nil]⟩
        rw [if_neg Bool.false_ne_true]
        exact ⟨rfl, rfl⟩

theorem codeOfIfElse (unique : (Code.definitions code).Nodup) {condition : Expr}
    {otherwise done : Label} (consequence : Realises interpretation code piece runs)
    (alternative : Realises interpretation code otherPiece otherRuns) :
    Realises interpretation code
      (Stmt.codeOfIfElse condition piece otherPiece otherwise done)
      fun before output after =>
        if interpretation.isTrue
          (interpretation.evaluate condition.fragment before) then
          runs before output after
        else otherRuns before output after where
  reaches := by
    intro position before output after stands executes accumulator printed
    obtain ⟨evalHere, jumpHere, standsInside, skipHere, labelThere, standsElse,
      doneThere⟩ :=
      at_codeOfIfElse.1 stands
    rw [Stmt.add_length_codeOfIfElse]
    split at executes
    next holds =>
      obtain ⟨leftover, reaches⟩ := consequence.reaches standsInside executes _ printed
      exact ⟨leftover, (reaches_of_true evalHere jumpHere holds).trans
        (reaches.trans (.step (Interpretation.step_goto unique skipHere doneThere)
          (.step (Interpretation.step_label doneThere) (.refl _))))⟩
    next fails =>
      rw [Bool.not_eq_true] at fails
      obtain ⟨leftover, reaches⟩ := alternative.reaches standsElse executes _ printed
      exact ⟨leftover,
        (reaches_of_false unique evalHere jumpHere labelThere fails).trans
          (reaches.trans (.step (Interpretation.step_label doneThere) (.refl _)))⟩
  passes := by
    intro position steps accumulator before printed total last stands finishes
    obtain ⟨evalHere, jumpHere, standsInside, skipHere, labelThere, standsElse,
      doneThere⟩ :=
      at_codeOfIfElse.1 stands
    rw [Stmt.add_length_codeOfIfElse]
    cases test :
      interpretation.isTrue (interpretation.evaluate condition.fragment before) with
    | true =>
        obtain ⟨fewer, le, inside⟩ :=
          finishes.of_reaches (reaches_of_true evalHere jumpHere test)
        obtain ⟨fewest, leFewer, leftover, output, after, executes, outside⟩ :=
          consequence.passes standsInside inside
        obtain ⟨_, rfl, atLabel⟩ :=
          outside.step (Interpretation.step_goto unique skipHere doneThere)
        obtain ⟨least, rfl, finishesLater⟩ :=
          atLabel.step (Interpretation.step_label doneThere)
        refine ⟨least, by omega, leftover, output, after, ?_, finishesLater⟩
        rwa [if_pos rfl]
    | false =>
        obtain ⟨fewer, le, inside⟩ :=
          finishes.of_reaches
            (reaches_of_false unique evalHere jumpHere labelThere test)
        obtain ⟨fewest, leFewer, leftover, output, after, executes, outside⟩ :=
          alternative.passes standsElse inside
        obtain ⟨least, rfl, finishesLater⟩ :=
          outside.step (Interpretation.step_label doneThere)
        refine ⟨least, by omega, leftover, output, after, ?_, finishesLater⟩
        rwa [if_neg Bool.false_ne_true]

/-- A loop is carried out by induction on its iterations, and passed by
induction on the steps that the machine still has to take: it comes back to the
head of the loop with fewer of them left. -/
theorem codeOfLoop (unique : (Code.definitions code).Nodup) {condition : Expr}
    {head exit : Label} (body : Realises interpretation code piece runs) :
    Realises interpretation code (Stmt.codeOfLoop condition piece head exit)
      (Iterates interpretation condition.fragment runs) where
  reaches := by
    intro position before output after stands iterates accumulator printed
    obtain ⟨headHere, evalHere, jumpHere, standsInside, backHere, exitThere⟩ :=
      at_codeOfLoop.1 stands
    rw [Stmt.add_length_codeOfLoop]
    induction iterates generalizing accumulator printed with
    | done fails =>
        rw [List.append_nil]
        exact ⟨_, .step (Interpretation.step_label headHere)
          (reaches_of_false unique evalHere jumpHere exitThere fails)⟩
    | again holds runsOnce _ ih =>
        obtain ⟨middle, reaches⟩ := body.reaches standsInside runsOnce _ printed
        obtain ⟨leftover, reachesEnd⟩ := ih middle _
        rw [← List.append_assoc]
        exact ⟨leftover, .step (Interpretation.step_label headHere)
          ((reaches_of_true evalHere jumpHere holds).trans
            (reaches.trans
              (.step (Interpretation.step_goto unique backHere headHere) reachesEnd)))⟩
  passes := by
    intro position steps accumulator before printed total last stands finishes
    obtain ⟨headHere, evalHere, jumpHere, standsInside, backHere, exitThere⟩ :=
      at_codeOfLoop.1 stands
    rw [Stmt.add_length_codeOfLoop]
    induction steps using Nat.strongRecOn generalizing accumulator before printed with
    | ind steps ih =>
        obtain ⟨steps, rfl, atTest⟩ :=
          finishes.step (Interpretation.step_label headHere)
        cases test : interpretation.isTrue
            (interpretation.evaluate condition.fragment before) with
        | true =>
            obtain ⟨fewer, le, inside⟩ :=
              atTest.of_reaches (reaches_of_true evalHere jumpHere test)
            obtain ⟨fewest, leFewer, middle, output, between, runsOnce, outside⟩ :=
              body.passes standsInside inside
            obtain ⟨_, rfl, atHead⟩ :=
              outside.step (Interpretation.step_goto unique backHere headHere)
            obtain ⟨least, leFewest, leftover, later, after, iterates, finishesLater⟩ :=
              ih _ (by omega) atHead
            refine ⟨least, by omega, leftover, output ++ later, after,
              .again test runsOnce iterates, ?_⟩
            rwa [← List.append_assoc]
        | false =>
            obtain ⟨fewer, le, outside⟩ :=
              atTest.of_reaches
                (reaches_of_false unique evalHere jumpHere exitThere test)
            exact ⟨fewer, by omega, _, [], before, .done test, by rwa [List.append_nil]⟩

end Realises

end StackCompiler
