import Mathlib.Algebra.Group.Nat.Defs
import StackCompiler.Proofs.Code.Lines
import StackCompiler.Proofs.Reading.Dimensions
import StackCompiler.Proofs.Reading.Layout
import StackCompiler.Proofs.Strictness

/-!
# Dimensions of arrays are exact

If a source compiles with zeros for the dimensions in lines of declarations with
which it begins, it compiles with the dimensions as they are written, however
long they are, unless one of them does not fit into a signed word of 64 bits;
then the first such dimension is reported (`compile_dimensions`). The zeros are
put in the place of the dimensions in the text of the source, so they stand at
other places than what they replace, and all that is behind them moves.
-/

namespace StackCompiler

/-- The tokens of a source whose pieces are taken in two parts. -/
theorem Lexed.exists_tokens {source : List Char} {front rest : List Piece}
    (split : pieces source = front ++ rest) :
    ∃ declared others, (ofSource source).tokens = declared ++ others ∧
      declared.map Token.lexeme = front.filterMap Piece.lexeme? ∧
      others.map Token.lexeme =
        rest.filterMap Piece.lexeme? ++ [⟨.endOfInput, ""⟩] := by
  have spelled := map_lexeme_survey source
  rw [split, List.filterMap_append, List.map_eq_append_iff] at spelled
  obtain ⟨declared, others, found, spells, spellsRest⟩ := spelled
  refine ⟨declared, others ++ [Token.endAt (survey source).loc (survey source).line],
    ?_, spells, ?_⟩
  · rw [tokens_ofSource, found, List.append_assoc]
  · rw [List.map_append, spellsRest]
    rfl

/-- Declarations in front of a program have their code in front of its code. -/
theorem CompilationUnit.code_declare (declarations : List Declaration)
    (unit : CompilationUnit) :
    code { unit with declarations := declarations ++ unit.declarations } =
      declarations.map .declare ++ unit.code := by
  have raw : rawCode { unit with declarations := declarations ++ unit.declarations } =
      declarations.map .declare ++ unit.rawCode := by
    rw [rawCode, rawCode, List.map_append, List.append_assoc]
  have places : Code.placeOf (declarations.map .declare ++ unit.rawCode) =
      Code.placeOf unit.rawCode := by
    funext label
    rw [Code.placeOf, Code.placeOf, Code.labels_append, Code.labels_declare,
      List.nil_append]
  rw [code, raw, Code.canonical, Code.relabel_append, Code.relabel_declare, places]
  rfl

/-! ### Zeros in the place of dimensions -/

theorem Piece.stray?_zeroed (piece : Piece) : piece.zeroed.stray? = piece.stray? := by
  cases piece with
  | lexeme kind text => cases kind <;> rfl
  | _ => rfl

/-- A source with zeros in the place of the integer literals among its first pieces. -/
def zeroOut (front rest : List Piece) : String :=
  String.ofList ((front.map Piece.zeroed ++ rest).flatMap Piece.chars)

section ZeroOut

variable {source : List Char} {front rest : List Piece}

theorem pieces_zeroOut (split : pieces source = front ++ rest) :
    pieces (zeroOut front rest).toList = front.map Piece.zeroed ++ rest := by
  rw [zeroOut, String.toList_ofList]
  exact (scans_iff.1 (scans_iff.2 split.symm).zeroed).symm

/-- What is skipped is the same with the zeros, so neither mode is stricter there. -/
theorem Lexed.read_of_zeroOut (split : pieces source = front ++ rest) {strict : Bool}
    (reads : (read (zeroOut front rest).toList strict).outcome =
      .ok (ofSource (zeroOut front rest).toList)) :
    (read source strict).outcome = .ok (ofSource source) := by
  have skipped := map_char_skipped_ofSource (zeroOut front rest).toList
  rw [pieces_zeroOut split, List.filterMap_append, List.filterMap_map,
    show Piece.stray? ∘ Piece.zeroed = Piece.stray? from funext Piece.stray?_zeroed,
    ← List.filterMap_append, ← split, ← map_char_skipped_ofSource source] at skipped
  rw [outcome_read_eq_ok_iff] at reads ⊢
  intro isStrict
  rw [reads isStrict, List.map_nil] at skipped
  exact List.map_eq_nil_iff.1 skipped.symm

end ZeroOut

/-- Tokens that spell zeros are not too large. -/
theorem Outcome.measured_zeroed {α : Type} {seen rest : List Token} {budget : Budget}
    {outcome : Outcome α} {lexemes : List Lexeme}
    (spells : seen.map Token.lexeme = lexemes.map Lexeme.zeroed) :
    measured seen rest budget outcome = outcome := by
  have none : (seen.dropWhile fun token => !token.isTooLarge) = [] := by
    rw [List.dropWhile_eq_nil_iff]
    intro token found
    have isZeroed : token.lexeme ∈ lexemes.map Lexeme.zeroed := by
      rw [← spells]
      exact List.mem_map_of_mem found
    obtain ⟨lexeme, _, same⟩ := List.mem_map.1 isZeroed
    rw [Token.isTooLarge, ← same, lexeme.isTooLarge_zeroed]
    rfl
  rw [measured, none]

theorem LooseLine.flatMap_lexemes_zeroed (lines : List LooseLine) :
    (lines.map zeroed).flatMap lexemes = (lines.flatMap lexemes).map Lexeme.zeroed := by
  rw [List.map_flatMap, List.flatMap_map]
  exact congrArg (List.flatMap · lines) (funext lexemes_zeroed)

/-! ### Programs with dimensions of any size -/

namespace CompilationUnit

variable {declared others : List Token} {lines : List LooseLine}

/-- What stands behind lines of declarations without dimensions other than zeros
is a program if the whole is. -/
theorem exists_read_of_zeroed {whole : CompilationUnit}
    (spells : declared.map Token.lexeme =
      (lines.map LooseLine.zeroed).flatMap LooseLine.lexemes)
    (forms : ofTokens? (declared ++ others) = .ok whole) :
    ∃ unit after, read ⟨others, Budget.unused⟩ = .ok unit after ∧
      whole.code =
        ((lines.map LooseLine.zeroed).flatMap LooseLine.declarations).map .declare ++
          unit.code := by
  have reads := @measures_read declared others Budget.unused _ spells
  rw [LooseLine.flatMap_lexemes_zeroed] at spells
  rw [Parser.Measures, Outcome.measured_zeroed spells] at reads
  rw [ofTokens?, reads] at forms
  cases run : read ⟨others, Budget.unused⟩ with
  | error problem stuck =>
      rw [run] at forms
      contradiction
  | ok unit after =>
      rw [run] at forms
      obtain rfl := Except.ok.inj forms
      exact ⟨unit, after, rfl, code_declare _ unit⟩

/-- Lines of declarations before a program are read, unless a dimension is too
large. Then the first one is. -/
theorem ofTokens?_of_lines {unit : CompilationUnit} {after : Cursor}
    (spells : declared.map Token.lexeme = lines.flatMap LooseLine.lexemes)
    (reads : read ⟨others, Budget.unused⟩ = .ok unit after) :
    ofTokens? (declared ++ others) =
      match declared.find? Token.isTooLarge with
      | none =>
          .ok { unit with
            declarations :=
              lines.flatMap LooseLine.declarations ++ unit.declarations }
      | some token => .error ⟨.badNumber .tooLarge, token⟩ := by
  have whole := @measures_read declared others Budget.unused _ spells
  rw [Parser.Measures, reads, Outcome.measured] at whole
  rw [ofTokens?, whole, List.find?_eq_head?_dropWhile_not]
  cases declared.dropWhile fun token => !token.isTooLarge <;> rfl

end CompilationUnit

namespace LooseLine

/-- Numbers that are too large are dimensions. -/
theorem find?_isTooLarge_eq_none_iff {declared : List Token} {lines : List LooseLine}
    (spells : declared.map Token.lexeme = lines.flatMap lexemes) :
    declared.find? Token.isTooLarge = none ↔
    ∀ dim ∈ lines.flatMap dims, dim.value < 2 ^ 63 := by
  have limit (number : Nat) : number < 2 ^ 63 ↔ number ≤ Text.Decimal.maxWord :=
    Nat.lt_succ_iff
  have small : (∀ lexeme ∈ declared.map Token.lexeme, lexeme.isTooLarge = false) ↔
      ∀ dim ∈ lines.flatMap dims, dim.value < 2 ^ 63 := by
    rw [spells, List.forall_mem_flatMap, List.forall_mem_flatMap]
    simp only [forall_small_iff, limit]
  rw [← small, List.forall_mem_map, List.find?_eq_none]
  simp only [Token.isTooLarge, Bool.not_eq_true]

theorem map_render_flatMap_declarations (lines : List LooseLine) :
    (lines.flatMap declarations).map Declaration.render = lines.flatMap render := by
  rw [List.map_flatMap]
  exact congrArg (List.flatMap · lines) (funext map_render_declarations)

/-- The declarations of lines are written in the first lines of a program. -/
theorem getElem?_lines_declare {lines : List LooseLine} {code : Code} {index : Nat}
    {text : String}
    (written : (lines.flatMap render)[index]? = some text) :
    (Program.lines
      ((lines.flatMap declarations).map Instruction.declare ++ code))[index]? =
      some ("    " ++ text ++
        if index + 1 =
          ((lines.flatMap declarations).map Instruction.declare ++ code).length
        then " END" else "") := by
  rw [← map_render_flatMap_declarations, List.getElem?_map, Option.map_eq_some_iff]
    at written
  obtain ⟨declaration, declared, rfl⟩ := written
  have present :
      ((lines.flatMap declarations).map Instruction.declare ++ code)[index]? =
      some (.declare declaration) := by
    rw [List.getElem?_append_left, List.getElem?_map, declared]
    · rfl
    · rw [List.length_map]
      exact (List.getElem?_eq_some_iff.1 declared).1
  exact Program.getElem?_lines present

end LooseLine

/-- What becomes of a source that begins with lines of declarations, of which
`declared` are the tokens. With zeros for dimensions it compiles to `zeros`, of
which `code` is what comes behind the declarations. -/
structure ExactDimensions (source : String) (strict : Bool) (lines : List LooseLine)
    (zeros : Compiled) (lexed : Lexed) (declared others : List Token)
    (code : Code) : Prop where
  reads : (Lexed.read source.toList strict).outcome = .ok lexed
  tokens : lexed.tokens = declared ++ others
  spells : declared.map Token.lexeme = lines.flatMap LooseLine.lexemes
  zeroed : zeros.program.instructions =
    ((lines.map LooseLine.zeroed).flatMap LooseLine.declarations).map .declare ++ code
  /-- Dimensions of 63 bits are the numbers that are written. In the text of the
  program they have no leading zeros. -/
  small : (∀ dim ∈ lines.flatMap LooseLine.dims, dim.value < 2 ^ 63) →
    ∃ program : Program,
      (compile source strict).outcome = .ok ⟨program, lexed.skipped⟩ ∧
      program.instructions =
        (lines.flatMap LooseLine.declarations).map .declare ++ code ∧
      ∀ index text, (lines.flatMap LooseLine.render)[index]? = some text →
        (Program.lines program.instructions)[index]? =
          some ("    " ++ text ++
            if index + 1 = program.instructions.length then " END" else "")
  /-- The first dimension that is larger is reported. -/
  large : (∃ dim ∈ lines.flatMap LooseLine.dims, 2 ^ 63 ≤ dim.value) →
    ∃ token, declared.find? Token.isTooLarge = some token ∧
      (compile source strict).outcome =
        .error (.malformedAt source.toList token.loc
          "invalid number: number too large to fit in target type")

/-- Dimensions are exact, or too large, in lines of any number and
dimensions of any length. -/
theorem compile_dimensions (source : String) (strict : Bool) (front rest : List Piece)
    (lines : List LooseLine) (zeros : Compiled)
    (split : pieces source.toList = front ++ rest)
    (written : front.filterMap Piece.lexeme? = lines.flatMap LooseLine.lexemes)
    (compiles : (compile (zeroOut front rest) strict).outcome = .ok zeros) :
    ∃ lexed declared others code,
      ExactDimensions source strict lines zeros lexed declared others code := by
  obtain ⟨readsZeros, whole, forms, rfl⟩ := ofTokens?_of_compile compiles
  have reads := Lexed.read_of_zeroOut split readsZeros
  obtain ⟨declared, others, tokens, spells, spellsRest⟩ := Lexed.exists_tokens split
  obtain ⟨zeroed, othersToo, tokensZeros, spellsZeros, spellsRestToo⟩ :=
    Lexed.exists_tokens (pieces_zeroOut split)
  rw [written] at spells
  rw [Piece.filterMap_lexeme?_zeroed, written, ← LooseLine.flatMap_lexemes_zeroed]
    at spellsZeros
  rw [tokensZeros] at forms
  obtain ⟨unitToo, afterToo, runToo, code⟩ :=
    CompilationUnit.exists_read_of_zeroed spellsZeros forms
  -- Behind the lines, the same tokens stand at other places.
  obtain ⟨unit, after, run, rfl⟩ : ∃ unit after,
      CompilationUnit.read ⟨others, Budget.unused⟩ = .ok unit after ∧
      unit = unitToo := by
    rcases CompilationUnit.read_or_fails
      (spellsRest.trans spellsRestToo.symm) Budget.unused with
      ⟨unit, after, _, run, same⟩ | ⟨_, _, _, _, fails, _⟩
    · rw [same] at runToo
      exact ⟨unit, after, run, (EStateM.Result.ok.inj runToo).1⟩
    · rw [fails] at runToo
      contradiction
  have formed := CompilationUnit.ofTokens?_of_lines spells run
  have outcome := outcome_compile_of_read reads
  rw [tokens, formed] at outcome
  have none := LooseLine.find?_isTooLarge_eq_none_iff spells
  refine ⟨_, declared, others, unit.code, reads, tokens, spells, code, ?_, ?_⟩
  · intro small
    rw [none.2 small] at outcome
    refine ⟨_, outcome, CompilationUnit.code_declare _ unit, ?_⟩
    intro index text isWritten
    rw [CompilationUnit.code_declare]
    exact LooseLine.getElem?_lines_declare isWritten
  · rintro ⟨dim, isDim, large⟩
    cases found : declared.find? Token.isTooLarge with
    | none => exact absurd large (Nat.not_le_of_lt (none.1 found dim isDim))
    | some token =>
        rw [found] at outcome
        exact ⟨token, rfl, outcome⟩

/-- Leading zeros do not count, and the largest number that fits is exact. -/
theorem compile_dimensions_largest :
    let lines : List LooseLine :=
      [⟨.int, ⟨"a", [⟨"007", by decide, by simp⟩]⟩,
        [⟨"b", [⟨"9223372036854775807", by decide, by simp⟩]⟩]⟩]
    let zeros : Compiled :=
      ⟨⟨[.declare ⟨.int, "a", [0]⟩, .declare ⟨.int, "b", [0]⟩, .print "a"]⟩, []⟩
    (pieces "int a[007],b[9223372036854775807];".toList).filterMap Piece.lexeme? =
        lines.flatMap LooseLine.lexemes ∧
      (compile "int a[0],b[0];print a;" false).outcome = .ok zeros ∧
      ∃ program : Program,
        (compile "int a[007],b[9223372036854775807];print a;" false).outcome =
          .ok ⟨program, []⟩ ∧
        program.instructions = [.declare ⟨.int, "a", [7]⟩,
            .declare ⟨.int, "b", [9223372036854775807]⟩, .print "a"] ∧
        Program.lines program.instructions =
          ["    INT a[7]", "    INT b[9223372036854775807]", "    PRINT a END"] := by
  intro lines zeros
  have split : pieces "int a[007],b[9223372036854775807];print a;".toList =
      pieces "int a[007],b[9223372036854775807];".toList ++ pieces "print a;".toList :=
    by decide +kernel
  have written :
      (pieces "int a[007],b[9223372036854775807];".toList).filterMap Piece.lexeme? =
      lines.flatMap LooseLine.lexemes := by decide +kernel
  have compiles : (compile "int a[0],b[0];print a;" false).outcome = .ok zeros := by
    decide +kernel
  have zeroed : zeroOut (pieces "int a[007],b[9223372036854775807];".toList)
      (pieces "print a;".toList) =
      "int a[0],b[0];print a;" := by decide +kernel
  obtain ⟨lexed, declared, others, code, dimensions⟩ :=
    compile_dimensions _ false _ _ lines zeros split written (zeroed ▸ compiles)
  have declaresZeros : ((lines.map LooseLine.zeroed).flatMap LooseLine.declarations).map
      Instruction.declare =
      [.declare ⟨.int, "a", [0]⟩, .declare ⟨.int, "b", [0]⟩] := by decide +kernel
  have declares : (lines.flatMap LooseLine.declarations).map Instruction.declare =
      [.declare ⟨.int, "a", [7]⟩, .declare ⟨.int, "b", [9223372036854775807]⟩] := by
    decide +kernel
  have values :
      (lines.flatMap LooseLine.dims).map Numeral.value = [7, 9223372036854775807] := by
    decide +kernel
  have small : ∀ dim ∈ lines.flatMap LooseLine.dims, dim.value < 2 ^ 63 := by
    have all :
        ∀ value ∈ (lines.flatMap LooseLine.dims).map Numeral.value, value < 2 ^ 63 := by
      rw [values]
      decide
    exact fun dim isDim => all _ (List.mem_map_of_mem isDim)
  have zerosCode := dimensions.zeroed
  rw [declaresZeros] at zerosCode
  obtain rfl : [.print "a"] = code := by simpa [zeros] using zerosCode
  obtain ⟨program, outcome, instructions, _⟩ := dimensions.small small
  rw [declares] at instructions
  have skipped : lexed.skipped = [] := by
    rw [Lexed.eq_ofSource_of_read dimensions.reads]
    decide +kernel
  rw [skipped] at outcome
  refine ⟨written, compiles, program, outcome, instructions, ?_⟩
  rw [instructions]
  rfl

/-- The next number does not fit. -/
example :
    (compile "int a[007],b[9223372036854775808];print a;" false).outcome =
      .error (.malformedAt "int a[007],b[9223372036854775808];print a;".toList 13
          "invalid number: number too large to fit in target type") := by decide +kernel

end StackCompiler
