import StackCompiler.Code.Canonical

/-!
# Numbering labels in place

On a machine the labels of code are numbered by writing over its instructions,
and what has been written over is lost. So the code must be known to be free of
faults before the first instruction is written over. Numbering in place goes
over the code for a survey, over the labels mentioned for their definitions, and
over the code once more to write. It leaves the canonical form of the code where
there is one, and otherwise the code as it was (`Canonical.on_renumberInPlace`).
-/

namespace StackCompiler.Canonical

/-- Work on code that stands in one place. What it has written stays written,
also if it fails later on. -/
abbrev InPlace := ExceptT Diagnostic (StateM Code)

namespace InPlace

variable {α β : Type}

/-- The outcome of work on some code, and the code that it leaves behind. -/
def on (work : InPlace α) (code : Code) : Except Diagnostic α × Code :=
  StateT.run (ExceptT.run work) code

theorem on_get (code : Code) : (get : InPlace Code).on code = (.ok code, code) := rfl

theorem on_bind_of_ok {work : InPlace α} {code after : Code} {result : α}
    (succeeds : work.on code = (.ok result, after)) (next : α → InPlace β) :
    (work >>= next).on code = (next result).on after := by
  have first : StateT.run (ExceptT.run work) code = (Except.ok result, after) :=
    succeeds
  simp only [on, ExceptT.run_bind, StateT.run_bind, first]
  rfl

theorem on_bind_of_error {work : InPlace α} {code after : Code}
    {diagnostic : Diagnostic} (fails : work.on code = (.error diagnostic, after))
    (next : α → InPlace β) : (work >>= next).on code = (.error diagnostic, after) := by
  have first : StateT.run (ExceptT.run work) code = (Except.error diagnostic, after) :=
    fails
  simp only [on, ExceptT.run_bind, StateT.run_bind, first]
  rfl

end InPlace

open InPlace

/-- Takes in the instruction at a position. A label that is defined for a second
time is an error. -/
def surveyAt (survey : Survey) (position : Nat) : InPlace Survey := do
  match (← get)[position]? with
  | none => return survey
  | some instruction =>
    let noted := survey.note instruction
    match instruction.defined? with
    | none => return noted
    | some label =>
      if noted.defined.contains label then throw (.duplicateLabel label)
      else return { noted with defined := noted.defined.add label }

/-- A label that is mentioned must be defined. -/
def demand (survey : Survey) (label : Label) : InPlace PUnit :=
  if survey.defined.contains label then return ⟨⟩ else throw (.undefinedLabel label)

/-- Writes over the instruction at a position. -/
def renumberAt (numbering : Numbering) (position : Nat) : InPlace PUnit :=
  modify fun code => code.modify position (·.relabel (rename numbering))

/-- Numbers the labels of code in place. -/
def renumberInPlace : InPlace PUnit := do
  let positions := List.range (← get).length
  let survey ← positions.foldlM surveyAt Survey.start
  forM survey.mentioned.toList (demand survey)
  forM positions (renumberAt survey.mentioned)

/-! ### What the stages come to -/

namespace Survey

/-- What a survey comes to: it has seen the whole code, or a label was defined
for a second time. -/
def outcome : Survey × Option Label → Except Diagnostic Survey
  | (survey, none) => .ok survey
  | (_, some label) => .error (.duplicateLabel label)

/-- A survey goes on behind an instruction unless it stops there. -/
theorem extend_cons (survey : Survey) (instruction : Instruction) (rest : Code) :
    survey.extend (instruction :: rest) =
      match survey.extend [instruction] with
      | (after, none) => after.extend rest
      | (after, some label) => (after, some label) := by
  rw [extend, extend]
  cases instruction.defined? with
  | none => rfl
  | some label =>
      simp only
      split
      next => rfl
      next => rfl

theorem outcome_extend_cons (survey : Survey) (instruction : Instruction)
    (rest : Code) :
    outcome (survey.extend (instruction :: rest)) = outcome
        (survey.extend [instruction]) >>= fun after => outcome (after.extend rest) := by
  rw [survey.extend_cons]
  cases survey.extend [instruction] with
  | mk after repeated? => cases repeated? <;> rfl

end Survey

theorem outcome_canonicalize_of_stop {code : Code} {after : Survey} {label : Label}
    (stops : survey code = (after, some label)) :
    (canonicalize code).outcome = .error (.duplicateLabel label) := by
  rw [canonicalize, stops]

theorem outcome_canonicalize_of_end {code : Code} {after : Survey}
    (ends : survey code = (after, none)) :
    (canonicalize code).outcome = match after.undefined? with
      | none => .ok (renumber after.mentioned code)
      | some label => .error (.undefinedLabel label) := by
  rw [canonicalize, ends]
  cases found : after.undefined? <;> simp only [found]

/-! ### Survey, demand, writing -/

theorem on_surveyAt (survey : Survey) (before : Code) (instruction : Instruction)
    (rest : Code) :
    (surveyAt survey before.length).on (before ++ instruction :: rest) =
      (Survey.outcome (survey.extend [instruction]),
        before ++ instruction :: rest) := by
  have here : (before ++ instruction :: rest)[before.length]? = some instruction := by
    simp
  rw [surveyAt, on_bind_of_ok (on_get _), here, Survey.extend]
  simp only
  cases instruction.defined? with
  | none => rfl
  | some label =>
      simp only
      split
      next => rfl
      next => rfl

/-- The survey stops where it should, and writes nothing. -/
theorem on_foldlM_surveyAt (survey : Survey) (before rest : Code) :
    ((List.range' before.length rest.length).foldlM surveyAt survey).on
        (before ++ rest) = (Survey.outcome (survey.extend rest), before ++ rest) := by
  induction rest generalizing survey before with
  | nil => rfl
  | cons instruction rest ih =>
      have first := on_surveyAt survey before instruction rest
      rw [List.length_cons, List.range'_succ, List.foldlM_cons,
        Survey.outcome_extend_cons]
      cases surveyed : Survey.outcome (survey.extend [instruction]) with
      | error diagnostic =>
          rw [surveyed] at first
          rw [on_bind_of_error first]
          rfl
      | ok after =>
          rw [surveyed] at first
          have later := ih after (before ++ [instruction])
          rw [List.length_append, List.append_assoc] at later
          rw [on_bind_of_ok first]
          exact later

/-- The search for definitions ends at the first label without one, and
writes nothing. -/
theorem on_forM_demand (survey : Survey) (code : Code) :
    (forM survey.mentioned.toList (demand survey)).on code =
      match survey.undefined? with
      | none => (.ok ⟨⟩, code)
      | some label => (.error (.undefinedLabel label), code) := by
  rw [Survey.undefined?]
  induction survey.mentioned.toList with
  | nil => rfl
  | cons label labels ih =>
      rw [List.forM_cons, List.find?_cons]
      cases defined : survey.defined.contains label with
      | true =>
          have found : (demand survey label).on code = (.ok ⟨⟩, code) := by
            rw [demand, if_pos defined]
            rfl
          rw [on_bind_of_ok found]
          exact ih
      | false =>
          have missed : (demand survey label).on code =
              (.error (.undefinedLabel label), code) := by
            rw [demand, defined, if_neg Bool.false_ne_true]
            rfl
          rw [on_bind_of_error missed]
          rfl

theorem on_renumberAt (numbering : Numbering) (before : Code)
    (instruction : Instruction) (rest : Code) :
    (renumberAt numbering before.length).on (before ++ instruction :: rest) =
      (.ok ⟨⟩, before ++ instruction.relabel (rename numbering) :: rest) := by
  have modified : (before ++ instruction :: rest).modify before.length
      (·.relabel (rename numbering)) =
      before ++ instruction.relabel (rename numbering) :: rest := by
    rw [List.modify_eq_take_cons_drop (by simp)]
    simp
  exact congrArg (Prod.mk _) modified

theorem on_forM_renumberAt (numbering : Numbering) (before rest : Code) :
    (forM (List.range' before.length rest.length) (renumberAt numbering)).on
        (before ++ rest) = (.ok ⟨⟩, before ++ renumber numbering rest) := by
  induction rest generalizing before with
  | nil => rfl
  | cons instruction rest ih =>
      have later := ih (before ++ [instruction.relabel (rename numbering)])
      rw [List.length_append, List.append_assoc, List.append_assoc] at later
      rw [List.length_cons, List.range'_succ, List.forM_cons,
        on_bind_of_ok (on_renumberAt numbering before instruction rest)]
      exact later

/-- Numbering in place leaves the canonical form of the code if there is one.
Otherwise it reports the same fault, and nothing has been written. -/
theorem on_renumberInPlace (code : Code) :
    renumberInPlace.on code =
      match (canonicalize code).outcome with
      | .ok new => (.ok ⟨⟩, new)
      | .error diagnostic => (.error diagnostic, code) := by
  have surveyed := on_foldlM_surveyAt Survey.start [] code
  rw [List.nil_append, List.length_nil, ← List.range_eq_range', ← survey] at surveyed
  rw [renumberInPlace, on_bind_of_ok (on_get code)]
  cases found : survey code with
  | mk after repeated? =>
      rw [found] at surveyed
      cases repeated? with
      | some label => rw [on_bind_of_error surveyed, outcome_canonicalize_of_stop found]
      | none =>
          have demanded := on_forM_demand after code
          rw [on_bind_of_ok surveyed, outcome_canonicalize_of_end found]
          cases undefined : after.undefined? with
          | some label =>
              rw [undefined] at demanded
              rw [on_bind_of_error demanded]
          | none =>
              rw [undefined] at demanded
              have written := on_forM_renumberAt after.mentioned [] code
              rw [List.nil_append, List.length_nil, ← List.range_eq_range'] at written
              rw [on_bind_of_ok demanded, written]
              rfl

end StackCompiler.Canonical
