import StackCompiler.Proofs.Token.LongestMatch

/-!
# Other numerals in the place of numerals

If integer literals of a source are replaced by other ones where they stand, the
pieces of the source stay what they are, but for the literals (`Scans.zeroed`).
To tell where a piece ends, one looks for a digit behind it, or for some
characters before the next digit, but never at what stands behind a digit.
-/

namespace StackCompiler

/-- Whether two texts are the same up to the first digit, and have a digit
there, or have none. -/
inductive Akin : List Char → List Char → Prop where
  | nil : Akin [] []
  | digit {char other : Char} {rest more : List Char} : char.isDigit → other.isDigit →
      Akin (char :: rest) (other :: more)
  | cons {char : Char} {rest more : List Char} : char.isDigit = false → Akin rest more →
      Akin (char :: rest) (char :: more)

namespace Akin

variable {text other : List Char}

theorem append (akin : Akin text other) (front : List Char) :
    Akin (front ++ text) (front ++ other) := by
  induction front with
  | nil => exact akin
  | cons char front ih =>
      by_cases isDigit : char.isDigit
      · exact .digit isDigit isDigit
      · exact .cons (Bool.eq_false_iff.2 isDigit) ih

theorem refl (text : List Char) : Akin text text := by
  rw [← List.append_nil text]
  exact append .nil text

theorem digits_eq_nil_iff (akin : Akin text other) :
    Piece.digits other = [] ↔ Piece.digits text = [] := by
  cases akin with
  | nil => rfl
  | digit isDigit isDigitToo => simp [Piece.digits, isDigit, isDigitToo]
  | cons noDigit _ => simp [Piece.digits, noDigit]

/-- Whether a character that is no digit comes first is the same. -/
theorem head?_beq (akin : Akin text other) {mark : Char}
    (noDigit : mark.isDigit = false) :
    (other.head? == some mark) = (text.head? == some mark) := by
  have ne {char : Char} (isDigit : char.isDigit) :
      (some char == some mark) = false := by
    rw [beq_eq_false_iff_ne, ne_eq, Option.some.injEq]
    rintro rfl
    rw [isDigit] at noDigit
    contradiction
  cases akin with
  | nil => rfl
  | digit isDigit isDigitToo =>
      rw [List.head?_cons, List.head?_cons, ne isDigit, ne isDigitToo]
  | cons _ _ => rfl

/-- What is taken of a text, digits included, is taken if the text goes on alike. -/
theorem takeWhile_append (akin : Akin text other) {belongs : Char → Bool}
    (digits : ∀ char, char.isDigit → belongs char) {front : List Char}
    (whole : (front ++ text).takeWhile belongs = front) :
    (front ++ other).takeWhile belongs = front := by
  induction front with
  | nil =>
      cases akin with
      | nil => rfl
      | digit isDigit _ => simp [digits _ isDigit] at whole
      | @cons char _ _ _ _ =>
          cases stops : belongs char with
          | false => simp [stops]
          | true => simp [stops] at whole
  | cons char front ih =>
      rw [List.cons_append, List.takeWhile_cons] at whole ⊢
      split at whole
      next isPart => rw [if_pos isPart, ih (List.cons.inj whole).2]
      next => contradiction

/-! ### Numbers -/

theorem sign_of_isDigit {char : Char} (isDigit : char.isDigit) (rest : List Char) :
    Piece.sign (char :: rest) = [] :=
  Piece.sign_append List.mem_cons_self
    ⟨List.cons_ne_nil _ _, List.forall_mem_singleton.2 isDigit⟩ rest

theorem sign_eq (akin : Akin text other) : Piece.sign other = Piece.sign text := by
  cases akin with
  | nil => rfl
  | digit isDigit isDigitToo => rw [sign_of_isDigit isDigit, sign_of_isDigit isDigitToo]
  | cons _ _ =>
      unfold Piece.sign
      split <;> split <;> simp_all

theorem drop_sign (akin : Akin text other) :
    Akin (text.drop (Piece.sign text).length)
      (other.drop (Piece.sign text).length) := by
  cases akin with
  | nil => exact .nil
  | digit isDigit isDigitToo =>
      rw [sign_of_isDigit isDigit]
      exact .digit isDigit isDigitToo
  | cons noDigit akin =>
      unfold Piece.sign
      split
      · exact akin
      · exact akin
      · exact .cons noDigit akin

theorem exponent_eq_nil (akin : Akin text other) (none : Piece.exponent text = []) :
    Piece.exponent other = [] := by
  cases akin with
  | nil => rfl
  | @digit char mark _ _ _ isDigitToo =>
      have noMark : (mark == 'e' || mark == 'E') = false := by
        rw [Bool.or_eq_false_iff, beq_eq_false_iff_ne, beq_eq_false_iff_ne]
        constructor <;> rintro rfl <;> contradiction
      simp [Piece.exponent, noMark]
  | cons _ akin =>
      have same := akin.drop_sign.digits_eq_nil_iff
      simp only [Piece.exponent, akin.sign_eq] at none ⊢
      split at none
      next => contradiction
      next noPower =>
        rw [if_neg]
        simpa [same] using noPower

theorem exponent_append (akin : Akin text other) {power : List Char}
    (whole : Piece.exponent (power ++ text) = power) :
    Piece.exponent (power ++ other) = power := by
  have isPower := Piece.isExponent_exponent (power ++ text)
  rw [whole] at isPower
  cases isPower with
  | none => exact akin.exponent_eq_nil whole
  | @power mark sign numeral isMark isSign isNumeral =>
      rw [List.cons_append, List.append_assoc, Piece.exponent,
        Piece.sign_append isSign isNumeral, List.drop_left] at whole ⊢
      split at whole
      next begins =>
        have numeralWhole := List.append_cancel_left (List.cons.inj whole).2
        rw [numeralWhole] at begins
        have same : Piece.digits (numeral ++ other) = numeral :=
          akin.takeWhile_append (fun _ => id) numeralWhole
        rw [same, if_pos begins]
      next => contradiction

theorem fraction_eq_nil (akin : Akin text other) (none : Piece.fraction text = []) :
    Piece.fraction other = [] := by
  cases akin with
  | nil => rfl
  | @digit char mark _ _ _ isDigitToo =>
      have noPoint : mark ≠ '.' := by
        rintro rfl
        contradiction
      simp [Piece.fraction, noPoint]
  | @cons char _ _ _ akin =>
      by_cases isPoint : char = '.'
      · rw [isPoint, Piece.fraction] at none ⊢
        split at none
        next noDigits => simpa [akin.digits_eq_nil_iff] using noDigits
        next => contradiction
      · simp [Piece.fraction, isPoint]

theorem fraction_append (akin : Akin text other) {front : List Char}
    (whole : Piece.fraction (front ++ text) = front) :
    Piece.fraction (front ++ other) = front := by
  cases front with
  | nil => exact akin.fraction_eq_nil whole
  | cons point behind =>
      by_cases isPoint : point = '.'
      · rw [isPoint, List.cons_append, Piece.fraction] at whole ⊢
        split at whole
        next => contradiction
        next someDigits =>
          have split := (List.cons.inj whole).2
          generalize isDecimals :
            Piece.digits (behind ++ text) = decimals at split someDigits
          generalize isPower :
            Piece.exponent ((behind ++ text).drop decimals.length) = power at split
          rw [← split, List.append_assoc] at isDecimals isPower
          rw [List.drop_left] at isPower
          have sameDecimals : Piece.digits (decimals ++ (power ++ other)) = decimals :=
            (akin.append power).takeWhile_append (fun _ => id) isDecimals
          rw [← split, List.append_assoc, sameDecimals, List.drop_left,
            akin.exponent_append isPower, if_neg someDigits]
      · simp [Piece.fraction, isPoint] at whole

/-! ### Pieces -/

/-- The digits of a number and its fraction stay what they are, if they take
up all of `rest`. -/
theorem number_append (akin : Akin text other) {rest : List Char}
    (whole : Piece.digits (rest ++ text) ++
      Piece.fraction ((rest ++ text).drop (Piece.digits (rest ++ text)).length) =
        rest) :
    Piece.digits (rest ++ other) = Piece.digits (rest ++ text) ∧
    Piece.fraction ((rest ++ other).drop (Piece.digits (rest ++ text)).length) =
      Piece.fraction ((rest ++ text).drop (Piece.digits (rest ++ text)).length) := by
  generalize isWhole : Piece.digits (rest ++ text) = more at whole ⊢
  generalize isFraction :
    Piece.fraction ((rest ++ text).drop more.length) = fraction at whole ⊢
  rw [← whole, List.append_assoc] at isWhole isFraction
  rw [List.drop_left] at isFraction
  rw [← whole, List.append_assoc, List.drop_left]
  exact ⟨(akin.append fraction).takeWhile_append (fun _ => id) isWhole,
    akin.fraction_append isFraction⟩

/-- A comment goes on to the end of the line. -/
theorem comment_append (akin : Akin text other) {rest : List Char}
    (whole : (rest ++ text).takeWhile (· != '\n') = rest) :
    (rest ++ other).takeWhile (· != '\n') = rest := by
  refine akin.takeWhile_append (fun char isDigit => ?_) whole
  rw [bne_iff_ne]
  rintro rfl
  contradiction

theorem word_append (akin : Akin text other) {rest : List Char}
    (whole : (rest ++ text).takeWhile Char.isAlphanum = rest) :
    (rest ++ other).takeWhile Char.isAlphanum = rest :=
  akin.takeWhile_append (fun _ isDigit => by simp [Char.isAlphanum, isDigit]) whole

/-- A piece stays what it is if the text behind it goes on alike. -/
theorem first_append (akin : Akin text other) {char : Char} {rest : List Char}
    (whole : (Piece.first char (rest ++ text)).chars = char :: rest) :
    Piece.first char (rest ++ other) = Piece.first char (rest ++ text) := by
  have slash := (akin.append rest).head?_beq (show Char.isDigit '/' = false by decide)
  have equals := (akin.append rest).head?_beq (show Char.isDigit '=' = false by decide)
  rw [Piece.first] at whole
  rw [Piece.first, Piece.first, slash, equals]
  by_cases isBlank : Piece.isBlank char
  · rw [if_pos isBlank, if_pos isBlank]
  rw [if_neg isBlank] at whole ⊢
  rw [if_neg isBlank]
  by_cases isComment : (char == '/' && (rest ++ text).head? == some '/') = true
  · rw [if_pos isComment] at whole ⊢
    rw [if_pos isComment]
    have line := (List.cons.inj whole).2
    rw [line, akin.comment_append line]
  rw [if_neg isComment] at whole ⊢
  rw [if_neg isComment]
  by_cases isAlpha : char.isAlpha
  · rw [if_pos isAlpha, Piece.chars_word] at whole
    rw [if_pos isAlpha, if_pos isAlpha]
    have word := (List.cons.inj whole).2
    rw [word, akin.word_append word]
  rw [if_neg isAlpha] at whole ⊢
  rw [if_neg isAlpha]
  by_cases isDigit : char.isDigit
  · rw [if_pos isDigit, Piece.chars_number, List.cons_append] at whole
    rw [if_pos isDigit, if_pos isDigit]
    obtain ⟨sameWhole, sameFraction⟩ := akin.number_append (List.cons.inj whole).2
    rw [sameWhole, sameFraction]
  rw [if_neg isDigit, if_neg isDigit]

/-- A numeral stays a numeral if another one takes its place and the text behind
it goes on alike. -/
theorem first_numeral (akin : Akin text other) {char digit : Char}
    {rest more : List Char}
    (isInteger : Piece.first char (rest ++ text) = .lexeme .integer (char :: rest))
    (isNumeral : Piece.IsNumeral (digit :: more)) :
    Piece.first digit (more ++ other) = .lexeme .integer (digit :: more) := by
  have isDigit : ∀ found ∈ char :: rest, found.isDigit := by
    cases Piece.formed_of_first isInteger with
    | integer _ digits => exact digits
  rw [List.forall_mem_cons] at isDigit
  rw [Piece.first_of_isDigit isDigit.1, Piece.number] at isInteger
  split at isInteger
  next noFraction =>
    have whole := (List.cons.inj (Piece.lexeme.inj isInteger).2).2
    rw [whole, List.drop_left, List.isEmpty_iff] at noFraction
    rw [Piece.digits, List.takeWhile_append_of_pos isDigit.2, List.append_right_eq_self]
      at whole
    have others := List.forall_mem_cons.1 isNumeral.isDigit
    have wholeToo : Piece.digits (more ++ other) = more := by
      rw [Piece.digits, List.takeWhile_append_of_pos others.2, ← Piece.digits,
        akin.digits_eq_nil_iff.2 whole, List.append_nil]
    rw [Piece.first_of_isDigit others.1, wholeToo, List.drop_left,
      akin.fraction_eq_nil noFraction]
    rfl
  next => simp at isInteger

end Akin

/-! ### Zeros in the place of numerals -/

/-- A lexeme, with the numeral `0` in the place of an integer literal. -/
def Lexeme.zeroed (lexeme : Lexeme) : Lexeme :=
  match lexeme.kind with
  | .integer => .integer "0"
  | _ => lexeme

namespace Piece

/-- A piece, with the numeral `0` in the place of an integer literal. -/
def zeroed : Piece → Piece
  | lexeme .integer _ => lexeme .integer ['0']
  | piece => piece

theorem isNumeral_zero : IsNumeral ['0'] := ⟨by decide, List.forall_mem_singleton.2 rfl⟩

theorem lexeme?_zeroed (piece : Piece) :
    piece.zeroed.lexeme? = piece.lexeme?.map Lexeme.zeroed := by
  cases piece with
  | lexeme kind text => cases kind <;> rfl
  | _ => rfl

theorem filterMap_lexeme?_zeroed (found : List Piece) :
    (found.map zeroed).filterMap lexeme? =
      (found.filterMap lexeme?).map Lexeme.zeroed := by
  rw [List.filterMap_map, List.map_filterMap]
  exact congrArg (List.filterMap · found) (funext lexeme?_zeroed)

theorem zeroed_cases (piece : Piece) :
    (∃ text, piece = lexeme .integer text) ∨ piece.zeroed = piece := by
  unfold zeroed
  split
  next text => exact .inl ⟨text, rfl⟩
  next => exact .inr rfl

/-- Whether or not a piece is replaced, it comes first where it stands, if the
text behind it goes on alike. -/
theorem Leads.zeroed {piece : Piece} {text other : List Char}
    (leads : Leads (piece.chars ++ text) piece) (akin : Akin text other) :
    Leads (piece.zeroed.chars ++ other) piece.zeroed ∧
    Akin (piece.chars ++ text) (piece.zeroed.chars ++ other) := by
  obtain ⟨char, rest, written⟩ := leads.exists_head
  rw [written, List.cons_append, leads_iff] at leads
  rcases piece.zeroed_cases with ⟨numeral, rfl⟩ | kept
  · obtain rfl : numeral = char :: rest := written
    have isDigit : char.isDigit := by
      cases formed_of_first leads.symm with
      | integer _ digits => exact digits char List.mem_cons_self
    exact ⟨leads_iff.2 (akin.first_numeral leads.symm isNumeral_zero).symm,
      .digit isDigit rfl⟩
  · rw [kept]
    refine ⟨?_, akin.append _⟩
    rw [written, List.cons_append, leads_iff,
      akin.first_append (by rw [← leads, written])]
    exact leads

end Piece

/-- If integer literals among the first pieces of a text become zeros, the
pieces stay what they are, but for these literals. -/
theorem Scans.zeroed {text : List Char} {front rest : List Piece}
    (scans : Scans text (front ++ rest)) :
    Scans ((front.map Piece.zeroed ++ rest).flatMap Piece.chars)
      (front.map Piece.zeroed ++ rest) := by
  suffices both : Scans ((front.map Piece.zeroed ++ rest).flatMap Piece.chars)
    (front.map Piece.zeroed ++ rest) ∧
      Akin text ((front.map Piece.zeroed ++ rest).flatMap Piece.chars) from both.1
  induction front generalizing text with
  | nil =>
      rw [List.nil_append] at scans
      rw [List.map_nil, List.nil_append, scans.flatMap_chars]
      exact ⟨scans, .refl text⟩
  | cons piece front ih =>
      cases scans with
      | cons leads scans =>
          obtain ⟨scansToo, akin⟩ := ih scans
          obtain ⟨leadsToo, akinToo⟩ := leads.zeroed akin
          exact ⟨.cons leadsToo scansToo, akinToo⟩

end StackCompiler
