import StackCompiler.Code.Instruction
import StackCompiler.Code.Numbering
import StackCompiler.Traced

/-!
# Canonical labels

Two pieces of code that differ in the numbers of their labels only do the same.
The canonical form of code numbers its labels from one, in the order in which
they are first mentioned, be it by a definition or by a jump. Code has a
canonical form if every label mentioned in it is defined exactly once.
-/

namespace StackCompiler.Canonical

/-- The labels mentioned and the labels defined in the part of code
that has been seen. -/
structure Survey where
  mentioned : Numbering
  defined : Numbering

namespace Survey

/-- Nothing has been seen. -/
def start : Survey := ⟨Numbering.empty, Numbering.empty⟩

/-- Takes in the label of an instruction, if it has one, as mentioned. -/
def note (survey : Survey) (instruction : Instruction) : Survey :=
  match instruction.label? with
  | none => survey
  | some label => { survey with mentioned := survey.mentioned.add label }

/-- Goes on over `code`, and stops at the first label that is defined
for a second time. -/
def extend (survey : Survey) : Code → Survey × Option Label
  | [] => (survey, none)
  | instruction :: rest =>
    let noted := survey.note instruction
    match instruction.defined? with
    | none => noted.extend rest
    | some label =>
      if noted.defined.contains label then (noted, some label)
      else { noted with defined := noted.defined.add label }.extend rest

/-- The first of the labels mentioned that is not defined. -/
def undefined? (survey : Survey) : Option Label :=
  survey.mentioned.toList.find? fun label => !survey.defined.contains label

/-- The notes on the numbering: labels receive their numbers in the order of
their first mention. -/
def events (survey : Survey) : List Log.Event :=
  (survey.mentioned.toList.zipIdx 1).map fun (label, number) =>
      .renumbered label ⟨number⟩

end Survey

/-- The survey of code, up to the first label that is defined for a second time. -/
def survey (code : Code) : Survey × Option Label := Survey.start.extend code

/-- The new label of a label that has a number. -/
def rename (numbering : Numbering) (label : Label) : Label :=
  match numbering.number? label with
  | some number => ⟨number⟩
  | none => label

/-- Code with its labels numbered anew, all at once. -/
def renumber (numbering : Numbering) (code : Code) : Code :=
  code.map (·.relabel (rename numbering))

/-- The canonical form of code, with a note on every label. A label that is
defined twice is an error, and so is one that is mentioned but not defined. -/
def canonicalize (code : Code) : Traced Code :=
  let (survey, repeated?) := survey code
  let outcome :=
    match repeated?, survey.undefined? with
    | some label, _ => .error (.duplicateLabel label)
    | none, some label => .error (.undefinedLabel label)
    | none, none => .ok (renumber survey.mentioned code)
  ⟨survey.events, outcome⟩

end StackCompiler.Canonical
