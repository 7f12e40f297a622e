import Mathlib.Data.List.Basic
import Std.Data.String.ToInt
import StackCompiler.Code.Program
import StackCompiler.Proofs.CompilationUnit.Image
import StackCompiler.Proofs.Expr.Origins
import StackCompiler.Proofs.Expr.Words

/-!
# The lines of a program

Where the texts in instructions are made up as those of programs that are read,
the text of a program has a line for each instruction (`Program.laidOut_lines`),
and it determines the program (`Program.eq_of_render`). What an instruction does
is told by its first word, which no name and no number can be mistaken for: only
definitions of labels begin without spaces, and all others have their first word
in the same column.
-/

namespace StackCompiler

theorem Designator.newline_not_mem_render {designator : Designator}
    (formed : designator.Formed) : '\n' ∉ designator.render.toList :=
  fun found => absurd (isSolid_render formed '\n' found) (by decide)

namespace Declaration

variable {declaration other : Declaration}

/-- The name that is declared with its dimensions, as a designator would have it. -/
def designator (declaration : Declaration) : Designator :=
  ⟨declaration.name, declaration.dims.map fun dim => .literal (toString dim)⟩

theorem render_eq (declaration : Declaration) :
    declaration.render =
      declaration.type.render ++ " " ++ declaration.designator.render := by
  simp only [render, Designator.render, designator, List.map_map, toString,
    String.append_assoc]
  rfl

theorem Fits.formed_designator (fits : declaration.Fits) :
    declaration.designator.Formed := by
  refine Designator.Fits.formed ⟨fits.1, List.forall_mem_map.2 fun dim isDim => ?_⟩
  exact ⟨_, Lexeme.fits_toString (fits.2 dim isDim).1, .inl rfl⟩

theorem eq_of_designator (sameType : declaration.type = other.type)
    (sameDesignator : declaration.designator = other.designator) :
    declaration = other := by
  obtain ⟨type, name, dims⟩ := declaration
  obtain ⟨otherType, otherName, otherDims⟩ := other
  obtain ⟨sameName, sameSubscripts⟩ := Designator.mk.inj sameDesignator
  have injective :
      Function.Injective fun dim : Int => Subscript.literal (toString dim) :=
    fun _ _ same => Int.repr_injective (Subscript.literal.inj same)
  have sameDims := List.map_injective_iff.2 injective sameSubscripts
  exact congr (congr (congrArg Declaration.mk sameType) sameName) sameDims

end Declaration

theorem TypeTag.render_injective : Function.Injective TypeTag.render := by
  intro type other same
  cases type <;> cases other <;> first | rfl | contradiction

theorem Label.render_injective : Function.Injective Label.render := by
  intro label other same
  have sameNumber : toString label.number = toString other.number :=
    (String.append_right_inj "L").1 same
  cases label
  cases other
  exact congrArg Label.mk (Nat.repr_injective sameNumber)

theorem Label.newline_not_mem_render (label : Label) : '\n' ∉ label.render.toList := by
  have written : label.render.toList = 'L' :: Nat.toDigits 10 label.number := by
    rw [← Text.Decimal.toList_toString]
    exact String.toList_append
  rw [written, List.mem_cons, not_or]
  exact ⟨by decide, fun found =>
      absurd (Nat.isDigit_of_mem_toDigits (by decide) (by decide) found) (by decide)⟩

namespace Instruction

variable {instruction other : Instruction}

/-- Whether the texts in an instruction are such that it fits into a line and
can be told from others. -/
def Legible : Instruction → Prop
  | declare declaration => declaration.Fits
  | eval text | assign text | print text => '\n' ∉ text.toList
  | label _ | goto _ | gotoFalse _ => True

/-- The first word of an instruction. Definitions of labels have none. -/
def mnemonic : Instruction → String
  | declare declaration => declaration.type.render
  | eval _ => "EVAL"
  | assign _ => "ASS"
  | print _ => "PRINT"
  | label _ => ""
  | goto _ => "GOTO"
  | gotoFalse _ => "GOTOF"

/-- What comes after the first word of an instruction. -/
def operand : Instruction → String
  | declare declaration => declaration.designator.render
  | eval text | assign text | print text => text
  | label name => name.render ++ ":"
  | goto name | gotoFalse name => name.render

theorem render_eq (noLabel : instruction.isLabel = false) :
    instruction.render = instruction.mnemonic ++ " " ++ instruction.operand := by
  cases instruction with
  | declare declaration => exact declaration.render_eq
  | label name => contradiction
  | _ => rfl

theorem exists_label (isLabel : instruction.isLabel) :
    ∃ name, instruction = .label name := by
  cases instruction with
  | label name => exact ⟨name, rfl⟩
  | _ => contradiction

theorem isAlpha_mnemonic (instruction : Instruction) :
    ∀ char ∈ instruction.mnemonic.toList, char.isAlpha := by
  cases instruction with
  | declare declaration =>
      rw [mnemonic]
      cases declaration.type <;> simp [TypeTag.render]
  | _ => simp [mnemonic]

theorem not_mem_mnemonic (instruction : Instruction) {char : Char}
    (noAlpha : char.isAlpha = false) : char ∉ instruction.mnemonic.toList := by
  intro found
  rw [instruction.isAlpha_mnemonic char found] at noAlpha
  contradiction

/-- No type is named like an instruction. -/
theorem mnemonic_declare_ne (declaration : Declaration)
    (noDeclaration : ∀ declared, other ≠ declare declared) :
    (declare declaration).mnemonic ≠ other.mnemonic := by
  cases type : declaration.type <;> cases other <;> simp_all [mnemonic, TypeTag.render]

theorem eq_of_mnemonic_of_operand (legible : instruction.Legible)
    (legibleToo : other.Legible) (noLabel : instruction.isLabel = false)
    (noLabelToo : other.isLabel = false)
    (sameWord : instruction.mnemonic = other.mnemonic)
    (sameOperand : instruction.operand = other.operand) : instruction = other := by
  cases instruction with
  | declare declaration =>
      cases other with
      | declare otherDeclaration =>
          have sameDesignator :=
            Designator.render_inj (Declaration.Fits.formed_designator legible)
            (Declaration.Fits.formed_designator legibleToo) sameOperand
          rw [Declaration.eq_of_designator
            (TypeTag.render_injective sameWord) sameDesignator]
      | _ => exact absurd sameWord (mnemonic_declare_ne _ (by simp))
  | label name => contradiction
  | _ =>
      cases other with
      | declare declaration =>
          exact absurd sameWord.symm (mnemonic_declare_ne _ (by simp))
      | label name => contradiction
      | _ => simp_all [mnemonic, operand, Label.render_injective.eq_iff]

theorem newline_not_mem_operand (legible : instruction.Legible) :
    '\n' ∉ instruction.operand.toList := by
  cases instruction with
  | declare declaration =>
      exact Designator.newline_not_mem_render
        (Declaration.Fits.formed_designator legible)
  | label name => simp [operand, name.newline_not_mem_render]
  | goto name | gotoFalse name => exact name.newline_not_mem_render
  | eval text | assign text | print text => exact legible

theorem newline_not_mem_render (legible : instruction.Legible) :
    '\n' ∉ instruction.render.toList := by
  have shown := newline_not_mem_operand legible
  cases isLabel : instruction.isLabel with
  | true =>
      obtain ⟨name, rfl⟩ := exists_label isLabel
      exact shown
  | false => simp [render_eq isLabel, shown, instruction.not_mem_mnemonic]

theorem render_inj (legible : instruction.Legible) (legibleToo : other.Legible)
    (noLabel : instruction.isLabel = false) (noLabelToo : other.isLabel = false)
    (same : instruction.render = other.render) : instruction = other := by
  have written := congrArg String.toList same
  simp only [render_eq noLabel, render_eq noLabelToo, String.toList_append,
    List.append_assoc] at written
  obtain ⟨sameWord, sameOperand⟩ :=
    eq_of_append_cons (instruction.not_mem_mnemonic (by decide))
    (other.not_mem_mnemonic (by decide)) written
  exact eq_of_mnemonic_of_operand legible legibleToo noLabel noLabelToo
    (String.toList_inj.1 sameWord)
    (String.toList_inj.1 sameOperand)

end Instruction

namespace Program

variable {instruction other : Instruction} {code otherCode : Code}

/-- Only definitions of labels begin without a space. -/
theorem head?_line (instruction : Instruction) :
    (line instruction).toList.head? =
      if instruction.isLabel then some 'L' else some ' ' := by
  cases instruction <;>
    simp [line, Instruction.isLabel, Instruction.defined?, Instruction.render,
      Label.render, toString]

/-- The line of an instruction tells the instruction. -/
theorem line_inj (legible : instruction.Legible) (legibleToo : other.Legible)
    (same : line instruction = line other) : instruction = other := by
  have sameKind : instruction.isLabel = other.isLabel := by
    have heads := head?_line instruction
    rw [same, head?_line other] at heads
    cases isLabel : instruction.isLabel <;> cases isLabelToo :
      other.isLabel <;> simp_all
  cases isLabel : instruction.isLabel with
  | false =>
      rw [isLabel] at sameKind
      rw [line, line, isLabel, ← sameKind] at same
      exact Instruction.render_inj legible legibleToo isLabel sameKind.symm
        ((String.append_right_inj _).1 same)
  | true =>
      rw [isLabel] at sameKind
      obtain ⟨label, rfl⟩ := Instruction.exists_label isLabel
      obtain ⟨otherLabel, rfl⟩ := Instruction.exists_label sameKind.symm
      rw [Label.render_injective ((String.append_left_inj _).1 same)]

theorem newline_not_mem_line (legible : instruction.Legible) :
    '\n' ∉ (line instruction).toList := by
  have shown := Instruction.newline_not_mem_render legible
  unfold line
  split
  next => exact shown
  next => simpa using shown

theorem lines_cons (instruction : Instruction) (notNil : code ≠ []) :
    lines (instruction :: code) = line instruction :: lines code := by
  cases code with
  | nil => contradiction
  | cons first rest => rfl

/-- All lines but the last are those of instructions. -/
theorem lines_concat (front : Code) (last : Instruction) :
    lines (front ++ [last]) = front.map line ++ [line last ++ " END"] := by
  induction front with
  | nil => rfl
  | cons first rest ih =>
      rw [List.cons_append, lines_cons first (by simp), ih, List.map_cons,
        List.cons_append]

theorem length_lines (code : Code) : (lines code).length = max 1 code.length := by
  rcases List.eq_nil_or_concat' code with rfl | ⟨front, last, rfl⟩
  · rfl
  · rw [lines_concat]
    simp

/-- The line of an instruction stands at the position of the instruction. -/
theorem getElem?_lines {index : Nat} (present : code[index]? = some instruction) :
    (lines code)[index]? =
        some (line instruction ++ if index + 1 = code.length then " END" else "") := by
  rcases List.eq_nil_or_concat' code with rfl | ⟨front, last, rfl⟩
  · contradiction
  · rw [lines_concat, List.length_append, List.length_singleton]
    by_cases inFront : index < front.length
    · rw [List.getElem?_append_left inFront] at present
      rw [List.getElem?_append_left (by rwa [List.length_map]), List.getElem?_map,
        present, if_neg (by omega), String.append_empty]
      rfl
    · have below := (List.getElem?_eq_some_iff.1 present).1
      rw [List.length_append, List.length_singleton] at below
      obtain rfl : index = front.length := by omega
      rw [List.getElem?_concat_length] at present
      obtain rfl := Option.some.inj present
      rw [if_pos rfl, ← List.length_map line, List.getElem?_concat_length]

theorem newline_not_mem_lines (legible : ∀ instruction ∈ code, instruction.Legible) :
    ∀ text ∈ lines code, '\n' ∉ text.toList := by
  rcases List.eq_nil_or_concat' code with rfl | ⟨front, last, rfl⟩
  · simp [lines]
  · rw [List.forall_mem_append, List.forall_mem_singleton] at legible
    rw [lines_concat, List.forall_mem_append, List.forall_mem_map,
      List.forall_mem_singleton, String.toList_append, List.mem_append, not_or]
    exact ⟨fun instruction found => newline_not_mem_line (legible.1 instruction found),
      newline_not_mem_line legible.2, by decide⟩

theorem map_line_inj {front otherFront : Code}
    (legible : ∀ instruction ∈ front, instruction.Legible)
    (legibleToo : ∀ other ∈ otherFront, other.Legible)
    (same : front.map line = otherFront.map line) : front = otherFront := by
  induction front generalizing otherFront with
  | nil => exact (List.map_eq_nil_iff.1 same.symm).symm
  | cons first rest ih =>
      obtain ⟨otherFirst, otherRest, rfl, sameLine, sameRest⟩ :=
        List.map_eq_cons_iff.1 same.symm
      rw [List.forall_mem_cons] at legible legibleToo
      rw [line_inj legible.1 legibleToo.1 sameLine.symm,
        ih legible.2 legibleToo.2 sameRest.symm]

theorem lines_nil_ne_concat (front : Code) (last : Instruction) :
    lines [] ≠ lines (front ++ [last]) := by
  rw [lines_concat]
  intro same
  change [] ++ ["END"] = front.map line ++ [line last ++ " END"] at same
  have sameText := List.singleton_inj.1 (List.append_inj' same rfl).2
  have lengths := congrArg String.length sameText
  rw [String.length_append] at lengths
  have short : "END".length < " END".length := by decide
  omega

/-- The lines of code tell the code. -/
theorem lines_inj (legible : ∀ instruction ∈ code, instruction.Legible)
    (legibleToo : ∀ other ∈ otherCode, other.Legible)
    (same : lines code = lines otherCode) : code = otherCode := by
  rcases List.eq_nil_or_concat' code with rfl | ⟨front, last, rfl⟩
  · rcases List.eq_nil_or_concat' otherCode with rfl | ⟨otherFront, otherLast, rfl⟩
    · rfl
    · exact absurd same (lines_nil_ne_concat _ _)
  · rcases List.eq_nil_or_concat' otherCode with rfl | ⟨otherFront, otherLast, rfl⟩
    · exact absurd same.symm (lines_nil_ne_concat _ _)
    · rw [List.forall_mem_append, List.forall_mem_singleton] at legible legibleToo
      rw [lines_concat, lines_concat] at same
      obtain ⟨sameFront, sameLast⟩ := List.append_inj' same rfl
      have sameLine := (String.append_left_inj _).1 (List.singleton_inj.1 sameLast)
      rw [map_line_inj legible.1 legibleToo.1 sameFront,
        line_inj legible.2 legibleToo.2 sameLine]

theorem toList_render (program : Program) :
    program.render.toList =
      (lines program.instructions).flatMap fun text => text.toList ++ ['\n'] := by
  rw [render, String.toList_join, List.flatMap_map]
  simp only [String.toList_append]
  rfl

/-- Where every line is ended by a line break and holds no other, the lines can
be told from the text. -/
theorem eq_of_flatMap_newline {texts others : List String}
    (unbroken : ∀ text ∈ texts, '\n' ∉ text.toList)
    (unbrokenToo : ∀ other ∈ others, '\n' ∉ other.toList)
    (same : (texts.flatMap fun text => text.toList ++ ['\n']) =
      others.flatMap fun text => text.toList ++ ['\n']) : texts = others := by
  induction texts generalizing others with
  | nil =>
      cases others with
      | nil => rfl
      | cons other rest => simp at same
  | cons text rest ih =>
      cases others with
      | nil => simp at same
      | cons other otherRest =>
          rw [List.forall_mem_cons] at unbroken unbrokenToo
          simp only [List.flatMap_cons, List.append_assoc, List.singleton_append]
            at same
          obtain ⟨sameText, sameRest⟩ := eq_of_append_cons unbroken.1 unbrokenToo.1 same
          rw [String.toList_inj.1 sameText, ih unbroken.2 unbrokenToo.2 sameRest]

/-- The text of a program tells the program. -/
theorem eq_of_render {program other : Program}
    (legible : ∀ instruction ∈ program.instructions, instruction.Legible)
    (legibleToo : ∀ instruction ∈ other.instructions, instruction.Legible)
    (same : program.render = other.render) : program = other := by
  have written := congrArg String.toList same
  rw [toList_render, toList_render] at written
  have sameLines := eq_of_flatMap_newline (newline_not_mem_lines legible)
    (newline_not_mem_lines legibleToo) written
  exact congrArg Program.mk (lines_inj legible legibleToo sameLines)

/-- Whether the text of a program consists of some lines, one for each instruction. -/
structure LaidOut (program : Program) (texts : List String) : Prop where
  render_eq : program.render = String.join (texts.map (· ++ "\n"))
  unbroken : ∀ text ∈ texts, '\n' ∉ text.toList
  length_eq : texts.length = max 1 program.instructions.length
  /-- Definitions of labels stand out to the left, and the last line has a word more. -/
  line_eq : ∀ index instruction, program.instructions[index]? = some instruction →
    texts[index]? =
      some ((if instruction.isLabel then "" else "    ") ++ instruction.render ++
        if index + 1 = program.instructions.length then " END" else "")
  empty : program.instructions = [] → texts = ["END"]

theorem line_eq (instruction : Instruction) :
    line instruction =
        (if instruction.isLabel then "" else "    ") ++ instruction.render := by
  unfold line
  split
  next => exact String.empty_append.symm
  next => rfl

theorem laidOut_lines {program : Program}
    (legible : ∀ instruction ∈ program.instructions, instruction.Legible) :
    program.LaidOut (lines program.instructions) := by
  refine ⟨rfl, newline_not_mem_lines legible, length_lines _, ?_, ?_⟩
  · intro index instruction present
    rw [← line_eq]
    exact getElem?_lines present
  · intro empty
    rw [empty]
    rfl

end Program

end StackCompiler
