import StackCompiler.Proofs.CompilationUnit.WellFormed
import StackCompiler.Proofs.CompilationUnit.Written

/-!
# Which programs are read

Exactly the well-formed programs are read, as far as the nesting is concerned:
what is read is well-formed, and a well-formed program is read from its text
unless that nests too deeply (`CompilationUnit.wellFormed_and_readUnit_text`).
-/

namespace StackCompiler

/-! ### Numbers -/

namespace Text.Decimal

theorem value_toDigits (number : Nat) : value (Nat.toDigits 10 number) = number := by
  refine Eq.trans ?_ (@Nat.ofDigitChars_toDigits 10 number (by decide) (by decide))
  unfold value valueBehind Nat.ofDigitChars
  congr 1
  funext digits char
  rw [Nat.mul_comm]

/-- A number is written as a numeral that denotes it. -/
theorem denotes_toString {number : Int} (nonneg : 0 ≤ number)
    (small : number ≤ maxWord) : Denotes (toString number).toList number := by
  rcases Int.eq_ofNat_of_zero_le nonneg with ⟨number, rfl⟩
  have digits := @Denotes.unsigned (Nat.toDigits 10 number) Nat.toDigits_ne_nil
    fun _ found => Nat.isDigit_of_mem_toDigits (by decide) (by decide) found
  rw [value_toDigits] at digits
  rw [toList_toString]
  exact digits (Int.ofNat_le.1 small)

end Text.Decimal

theorem Lexeme.fits_toString {number : Int} (nonneg : 0 ≤ number) :
    (integer (toString number)).Fits := by
  rcases Int.eq_ofNat_of_zero_le nonneg with ⟨number, rfl⟩
  rw [Lexeme.Fits, Text.Decimal.toList_toString]
  exact .integer ⟨Nat.toDigits_ne_nil,
      fun _ found => Nat.isDigit_of_mem_toDigits (by decide) (by decide) found⟩

/-- No literal has a sign of its own. -/
theorem Piece.Fits.ne_minus {kind : Token.Kind} {text rest : List Char}
    (fits : Fits (.lexeme kind text)) (noMark : kind ≠ .punctuator) :
    text ≠ '-' :: rest := by
  rintro rfl
  have isMark : first '-' rest = .lexeme .punctuator ['-'] := rfl
  have isFirst := fits.eq_first rfl
  rw [isMark] at isFirst
  exact noMark (Piece.lexeme.inj isFirst).1

theorem Piece.Fits.mem_point {text : List Char} (fits : Fits (.lexeme .double text)) :
    '.' ∈ text := by
  cases fits with
  | double => exact List.mem_append_right _ List.mem_cons_self

theorem Piece.Fits.not_mem_point {text : List Char}
    (fits : Fits (.lexeme .integer text)) : '.' ∉ text := by
  cases fits with
  | integer isNumeral =>
      exact fun found => absurd (isNumeral.isDigit '.' found) (by decide)

/-- The kind of a literal can be told from its text. -/
theorem Literal.fits_ofText {text : String}
    (fits : Piece.Fits (.lexeme .integer text.toList) ∨
      Piece.Fits (.lexeme .double text.toList)) : (ofText text).lexeme.Fits := by
  unfold ofText
  split
  next hasPoint =>
      exact fits.resolve_left fun isInteger => isInteger.not_mem_point hasPoint
  next noPoint => exact fits.resolve_right fun isDouble => noPoint isDouble.mem_point

/-- A numeral with a sign or without is a numeral without the sign. -/
theorem SignedNumeral.getD_unsigned? {IsNumeral : List Char → Prop}
    (noSign : ∀ rest, ¬ IsNumeral ('-' :: rest)) {text : String}
    (signed : SignedNumeral IsNumeral text) :
    IsNumeral ((unsigned? text).getD text).toList := by
  rcases signed with ⟨numeral, isNumeral, written | written⟩
  · cases found : unsigned? text with
    | none => rwa [Option.getD_none, written]
    | some rest =>
        rw [unsigned?_eq_some_iff, written] at found
        subst found
        exact absurd isNumeral (noSign _)
  · have found : unsigned? text = some (String.ofList numeral) := by
      rw [unsigned?_eq_some_iff, written, String.toList_ofList]
    rwa [found, Option.getD_some, String.toList_ofList]

theorem Phrase.fits_numeral {text : String} (fits : (Expr.number text).Fits) :
    ∀ lexeme ∈ (numeral text).lexemes, lexeme.Fits := by
  have noSign (rest : List Char) :
      ¬ (Piece.Fits (.lexeme .integer ('-' :: rest)) ∨
          Piece.Fits (.lexeme .double ('-' :: rest))) := by
    rintro (isInteger | isDouble)
    · exact isInteger.ne_minus (by decide) rfl
    · exact isDouble.ne_minus (by decide) rfl
  have fitsLiteral := Literal.fits_ofText (SignedNumeral.getD_unsigned? noSign fits)
  unfold numeral
  cases signed : unsigned? text with
  | some digits =>
      rw [signed, Option.getD_some] at fitsLiteral
      exact List.forall_mem_cons.2
        ⟨.mark (by decide), List.forall_mem_singleton.2 fitsLiteral⟩
  | none =>
      rw [signed, Option.getD_none] at fitsLiteral
      exact List.forall_mem_singleton.2 fitsLiteral

theorem Index.fits_numeral {text : String} (fits : (Subscript.literal text).Fits) :
    ∀ lexeme ∈ (numeral text).lexemes, lexeme.Fits := by
  have noSign (rest : List Char) : ¬ Piece.Fits (.lexeme .integer ('-' :: rest)) :=
    fun isInteger => isInteger.ne_minus (by decide) rfl
  have fitsInteger := SignedNumeral.getD_unsigned? noSign fits
  unfold numeral
  cases signed : unsigned? text with
  | some digits =>
      rw [signed, Option.getD_some] at fitsInteger
      simp only [lexemes, content, List.cons_append, List.nil_append,
        List.forall_mem_cons]
      exact ⟨.mark (by decide), .mark (by decide), fitsInteger, .mark (by decide),
        List.forall_mem_nil _⟩
  | none =>
      rw [signed, Option.getD_none] at fitsInteger
      simp only [lexemes, content, List.cons_append, List.nil_append,
        List.forall_mem_cons]
      exact ⟨.mark (by decide), fitsInteger, .mark (by decide), List.forall_mem_nil _⟩

/-! ### What is written fits -/

theorem Subscript.fits_written {subscript : Subscript} (fits : subscript.Fits) :
    ∀ lexeme ∈ subscript.written.lexemes, lexeme.Fits := by
  cases subscript with
  | literal text => exact Index.fits_numeral fits
  | identifier name =>
      exact List.forall_mem_cons.2 ⟨.mark (by decide), List.forall_mem_cons.2 ⟨fits,
        List.forall_mem_singleton.2 (.mark (by decide))⟩⟩

theorem Designator.fits_written {designator : Designator} (fits : designator.Fits) :
    ∀ lexeme ∈ designator.written.lexemes, lexeme.Fits := by
  rcases fits with ⟨fitsName, fitsSubscripts⟩
  refine List.forall_mem_cons.2
    ⟨fitsName, List.forall_mem_flatMap.2 (List.forall_mem_map.2 ?_)⟩
  exact fun subscript found => Subscript.fits_written (fitsSubscripts subscript found)

namespace Expr

section

variable {expr : Expr} {otherwise : Phrase .whole}

theorem fits_operand (fits : expr.Fits)
    (same : ∀ lexeme ∈ otherwise.lexemes, lexeme.Fits) :
    ∀ lexeme ∈ (expr.operand otherwise).lexemes, lexeme.Fits := by
  cases expr with
  | number text => exact Phrase.fits_numeral fits
  | designator target => exact Designator.fits_written fits
  | unary operator operand | binary operator left right => exact Phrase.fits_parens same

theorem fits_argument (operator : UnaryOp) (fits : expr.Fits)
    (same : ∀ lexeme ∈ otherwise.lexemes, lexeme.Fits) :
    ∀ lexeme ∈ (expr.argument operator otherwise).lexemes, lexeme.Fits := by
  unfold argument
  split
  next => exact Phrase.fits_parens same
  next => exact fits_operand fits same

end

theorem fits_written {expr : Expr} (fits : expr.Fits) :
    ∀ lexeme ∈ expr.written.lexemes, lexeme.Fits := by
  induction expr with
  | number text =>
      rw [written, Phrase.lexemes_ofOperand]
      exact Phrase.fits_numeral fits
  | designator target =>
      rw [written, Phrase.lexemes_ofOperand]
      exact Designator.fits_written fits
  | unary operator operand ih =>
      rw [written, Phrase.lexemes_ofOperand, Phrase.lexemes, List.forall_mem_cons]
      exact ⟨operator.fits_symbol, fits_argument operator fits (ih fits)⟩
  | binary operator left right ihLeft ihRight =>
      rw [written, Phrase.lexemes_widened, Phrase.lexemes_joined,
        List.forall_mem_append, List.forall_mem_cons]
      exact ⟨fits_operand fits.1 (ihLeft fits.1), operator.fits_symbol,
        fits_operand fits.2 (ihRight fits.2)⟩

theorem fits_enclosed {expr : Expr} (fits : expr.Fits) :
    ∀ lexeme ∈ expr.written.enclosed, lexeme.Fits :=
  Phrase.fits_parens (fits_written fits)

end Expr

namespace Stmt

mutual

theorem fits_written :
    (stmt : Stmt) → stmt.Fits → ∀ lexeme ∈ stmt.written.lexemes, lexeme.Fits
  | block body, fits => by
      rw [written, Sentence.lexemes, List.forall_mem_cons, List.forall_mem_append,
        List.forall_mem_singleton]
      exact ⟨.mark (by decide), fits_writtenAll body fits, .mark (by decide)⟩
  | ifThen condition consequence, fits => by
      rw [written, Sentence.lexemes, List.forall_mem_cons, List.forall_mem_append]
      exact ⟨Lexeme.fits_keyword (by decide), Expr.fits_enclosed fits.1,
        fits_written consequence fits.2⟩
  | ifElse condition consequence alternative, fits => by
      rw [written, Sentence.lexemes, List.forall_mem_cons, List.forall_mem_append,
        List.forall_mem_append, List.forall_mem_cons]
      exact ⟨Lexeme.fits_keyword (by decide), Expr.fits_enclosed fits.1,
        fits_written consequence fits.2.1, Lexeme.fits_keyword (by decide),
        fits_written alternative fits.2.2⟩
  | loop condition body, fits => by
      rw [written, Sentence.lexemes, List.forall_mem_cons, List.forall_mem_append]
      exact ⟨Lexeme.fits_keyword (by decide), Expr.fits_enclosed fits.1,
        fits_written body fits.2⟩
  | print value, fits => by
      rw [written]
      exact Sentence.fits_print (Expr.fits_written fits)
  | assign target value, fits => by
      rw [written, Sentence.lexemes, List.forall_mem_append, List.forall_mem_cons,
        List.forall_mem_append, List.forall_mem_singleton]
      exact ⟨Designator.fits_written fits.1, .mark (by decide),
        Expr.fits_written fits.2, .mark (by decide)⟩

theorem fits_writtenAll : (body : List Stmt) → FitsAll body →
    ∀ lexeme ∈ Sentence.lexemesAll (writtenAll body), lexeme.Fits
  | [], _ => List.forall_mem_nil _
  | first :: rest, fits => by
      rw [writtenAll, Sentence.lexemesAll, List.forall_mem_append]
      exact ⟨fits_written first fits.1, fits_writtenAll rest fits.2⟩

end

end Stmt

theorem TypeTag.fits_keyword (type : TypeTag) : (Lexeme.keyword type.keyword).Fits := by
  cases type <;> exact Lexeme.fits_keyword (by decide)

namespace Declaration

theorem fits_written {declaration : Declaration} (fits : declaration.Fits) :
    ∀ lexeme ∈ declaration.written, lexeme.Fits := by
  rw [written, List.forall_mem_cons, List.forall_mem_cons, List.forall_mem_append,
    List.forall_mem_flatMap, List.forall_mem_singleton]
  refine ⟨declaration.type.fits_keyword, fits.1, fun dim found => ?_, .mark (by decide)⟩
  exact List.forall_mem_cons.2 ⟨.mark (by decide),
      List.forall_mem_cons.2 ⟨Lexeme.fits_toString (fits.2 dim found).1,
          List.forall_mem_singleton.2 (.mark (by decide))⟩⟩

/-- A dimension is derived from its digits. -/
theorem exists_extents {dims : List Int}
    (bounds : ∀ dim ∈ dims, 0 ≤ dim ∧ dim ≤ Text.Decimal.maxWord) :
    ∃ extents : List Extent, extents.map Extent.value = dims ∧
      extents.flatMap Extent.lexemes =
        dims.flatMap fun dim => [.mark "[", .integer (toString dim), .mark "]"] := by
  induction dims with
  | nil => exact ⟨[], rfl, rfl⟩
  | cons dim dims ih =>
      rcases List.forall_mem_cons.1 bounds with ⟨⟨nonneg, small⟩, boundsRest⟩
      rcases ih boundsRest with ⟨extents, values, written⟩
      refine ⟨⟨toString dim, dim, Text.Decimal.denotes_toString nonneg small⟩ ::
          extents, ?_, ?_⟩
      · rw [List.map_cons, values]
      · rw [List.flatMap_cons, List.flatMap_cons, written]
        rfl

/-- Declarations are derived from their lines. -/
theorem exists_lines {declarations : List Declaration}
    (fits : ∀ declaration ∈ declarations, declaration.Fits) :
    ∃ lines : List Line, lines.flatMap Line.tree = declarations ∧
      lines.flatMap Line.lexemes = declarations.flatMap written := by
  induction declarations with
  | nil => exact ⟨[], rfl, rfl⟩
  | cons declaration declarations ih =>
      rcases List.forall_mem_cons.1 fits with ⟨⟨_, bounds⟩, fitsRest⟩
      rcases ih fitsRest with ⟨lines, trees, writtenRest⟩
      rcases exists_extents bounds with ⟨extents, values, writtenDims⟩
      refine ⟨⟨declaration.type, ⟨declaration.name, extents⟩, []⟩ :: lines, ?_, ?_⟩
      · rw [List.flatMap_cons, trees, Line.tree, Declarator.tree, values]
        rfl
      · rw [List.flatMap_cons, List.flatMap_cons, writtenRest, Line.lexemes,
          Declarator.lexemes, writtenDims, written]
        rfl

end Declaration

namespace CompilationUnit

variable {unit : CompilationUnit}

theorem fits_written (wellFormed : unit.WellFormed) :
    ∀ lexeme ∈ unit.written, lexeme.Fits := by
  rw [written, List.forall_mem_append, List.forall_mem_flatMap,
      ← Sentence.lexemesAll_eq_flatMap]
  exact ⟨fun declaration found =>
    Declaration.fits_written (wellFormed.declarations_fit declaration found),
    Stmt.fits_writtenAll unit.body wellFormed.body_fits⟩

/-- A well-formed program is derived from what is written of it. -/
theorem exists_composition (wellFormed : unit.WellFormed) :
    ∃ composition : Composition, composition.lexemes = unit.written ∧
      composition.tree = unit ∧
      composition.sentences = Stmt.writtenAll unit.body := by
  rcases Declaration.exists_lines wellFormed.declarations_fit with
    ⟨lines, declared, writtenLines⟩
  have trees := Stmt.tree_writtenAll unit.body
  cases sentences : Stmt.writtenAll unit.body with
  | nil =>
      rw [sentences] at trees
      exact absurd trees.symm wellFormed.some_body
  | cons first others =>
      rw [sentences, Sentence.treeAll_eq_map] at trees
      refine ⟨⟨lines, first, others⟩, ?_, ?_, rfl⟩
      · rw [Composition.lexemes, writtenLines, written, sentences]
        rfl
      · rw [Composition.tree, declared]
        exact congrArg (CompilationUnit.mk unit.declarations) trees

/-- What is read is well-formed, and a well-formed program is read from its
text, of which nothing is skipped, unless that nests too deeply. -/
theorem wellFormed_and_readUnit_text (unit : CompilationUnit) :
    (∀ source strict skipped, (readUnit source strict).outcome = .ok (unit, skipped) →
      unit.WellFormed) ∧
    (unit.WellFormed →
      (∀ sentence ∈ Stmt.writtenAll unit.body, sentence.nest ≤ maxNesting) →
      (readUnit unit.text false).outcome = .ok (unit, [])) := by
  refine ⟨fun _ _ _ reads => wellFormed_of_readUnit reads, fun wellFormed shallow => ?_⟩
  rcases exists_composition wellFormed with ⟨composition, isWritten, tree, sentences⟩
  have few : ∀ sentence ∈ Stmt.writtenAll unit.body, sentence.peak ≤ sentence.nest := by
    rw [Stmt.writtenAll_eq_map, List.forall_mem_map]
    exact fun stmt _ => stmt.peak_written_le
  have fits : Language.composition.Fits Budget.unused composition := by
    rw [Composition.fits_unused_iff, tree, sentences]
    refine ⟨wellFormed.else_nearest, fun sentence found => ⟨shallow sentence found, ?_⟩⟩
    exact (few sentence found).trans ((shallow sentence found).trans (by decide))
  have reads := readUnit_spaced fits (by rw [isWritten]; exact fits_written wellFormed)
  rw [isWritten, tree] at reads
  exact reads

/-- Of two minus signs, one belongs to a subscript, and one has a number in
parentheses behind it. -/
theorem readUnit_text_signs :
    (readUnit "int a [ 3 ] ; print ( - ( 5 ) ) + a [ - 1 ] ;" false).outcome =
      .ok (⟨[⟨.int, "a", [3]⟩], [.print (.binary .add (.unary .negate (.number "5"))
        (.designator ⟨"a", [.literal "-1"]⟩))]⟩, []) := by
  refine (wellFormed_and_readUnit_text
    ⟨[⟨.int, "a", [3]⟩], [.print (.binary .add (.unary .negate (.number "5"))
      (.designator ⟨"a", [.literal "-1"]⟩))]⟩).2
    ?_ (List.forall_mem_singleton.2 (by decide))
  have digit (char : Char) (isDigit : char.isDigit) :
      Piece.Fits (.lexeme .integer [char]) :=
    .integer ⟨List.cons_ne_nil _ _, List.forall_mem_singleton.2 isDigit⟩
  refine ⟨List.cons_ne_nil _ _, List.forall_mem_singleton.2 ⟨Lexeme.fits_letter, ?_⟩,
    ⟨⟨?_, ?_⟩, trivial⟩, ⟨trivial, trivial⟩⟩
  · exact List.forall_mem_singleton.2 (by decide)
  · exact ⟨['5'], .inl (digit '5' rfl), .inl rfl⟩
  · exact ⟨Lexeme.fits_letter,
      List.forall_mem_singleton.2 ⟨['1'], digit '1' rfl, .inr rfl⟩⟩

end CompilationUnit

end StackCompiler
