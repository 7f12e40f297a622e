import Mathlib.Data.List.TakeWhile
import StackCompiler.Token.Piece

/-!
# The patterns of pieces

The lexical grammar: which blanks, comments, words, numbers and punctuation
marks there are, said without regard to how a text is split. The first piece of
a text fits into the grammar, or is a stray character with which nothing in the
grammar begins (`Piece.fits_first_or_stray`); whatever fits at the beginning of
a text is no longer than the first piece (`Piece.Fits.isPrefix_first`); and what
fits is determined by its characters (`Piece.Fits.eq_first`).
-/

namespace StackCompiler

/-- What stands at the beginning of a text and belongs there entirely, belongs
to what is taken from there. -/
theorem isPrefix_takeWhile {belongs : Char → Bool} {front text : List Char}
    (allBelong : ∀ char ∈ front, belongs char) (isInitial : front <+: text) :
    front <+: text.takeWhile belongs := by
  obtain ⟨rest, rfl⟩ := isInitial
  rw [List.takeWhile_append_of_pos allBelong]
  exact List.prefix_append _ _

/-- What is taken from the beginning of a text ends before the first character
that does not belong. -/
theorem takeWhile_append_cons {belongs : Char → Bool} {front : List Char} {stop : Char}
    (allBelong : ∀ char ∈ front, belongs char) (stops : belongs stop = false)
    (after : List Char) : (front ++ stop :: after).takeWhile belongs = front := by
  rw [List.takeWhile_append_of_pos allBelong, List.takeWhile_cons, stops]
  exact List.append_nil front

/-- Letters and digits lie apart, the letters behind the digits. -/
theorem not_isDigit_of_isAlpha {char : Char} (isAlpha : char.isAlpha) :
    char.isDigit = false := by
  have isLetter : 'A'.val ≤ char.val := by
    rcases Bool.or_eq_true_iff.1 isAlpha with upper | lower
    · exact (of_decide_eq_true upper).1
    · exact UInt32.le_trans (by decide)
        (of_decide_eq_true (Bool.and_eq_true_iff.1 lower).1)
  rw [Bool.eq_false_iff]
  intro isDigit
  have isNumber : char.val ≤ '9'.val :=
    of_decide_eq_true (Bool.and_eq_true_iff.1 isDigit).2
  exact absurd (UInt32.le_trans isLetter isNumber) (by decide)

namespace Piece

/-- A letter, and then letters and digits. -/
inductive IsWord : List Char → Prop where
  | intro {char : Char} {rest : List Char} :
      char.isAlpha → (∀ other ∈ rest, other.isAlphanum) → IsWord (char :: rest)

/-- Digits, at least one. -/
structure IsNumeral (text : List Char) : Prop where
  ne_nil : text ≠ []
  isDigit : ∀ char ∈ text, char.isDigit

/-- Nothing, or the letter `e`, small or capital, with a sign or none and a numeral. -/
inductive IsExponent : List Char → Prop where
  | none : IsExponent []
  | power {mark : Char} {sign numeral : List Char} : mark ∈ ['e', 'E'] →
      sign ∈ [[], ['+'], ['-']] →
      IsNumeral numeral → IsExponent (mark :: (sign ++ numeral))

/-- Whether a piece fits into the lexical grammar. Stray characters do not. -/
inductive Fits : Piece → Prop where
  | blank {char : Char} : isBlank char → Fits (.blank char)
  | comment {line : List Char} : '\n' ∉ line → Fits (.comment ('/' :: '/' :: line))
  | keyword {text : List Char} : IsWord text → String.ofList text ∈ Token.keywords →
      Fits (.lexeme .keyword text)
  | identifier {text : List Char} : IsWord text → String.ofList text ∉ Token.keywords →
      Fits (.lexeme .identifier text)
  | integer {text : List Char} : IsNumeral text → Fits (.lexeme .integer text)
  | double {whole decimals power : List Char} : IsNumeral whole → IsNumeral decimals →
      IsExponent power →
      Fits (.lexeme .double (whole ++ '.' :: (decimals ++ power)))
  | comparison {char : Char} : char ∈ ['=', '<', '>'] →
      Fits (.lexeme .punctuator [char, '='])
  | mark {char : Char} : char ∈ marks → Fits (.lexeme .punctuator [char])

/-- Whether something in the lexical grammar begins with a character. -/
def begins (char : Char) : Bool :=
  isBlank char || char.isAlpha || char.isDigit || marks.contains char

/-! ### What is found fits -/

theorem isNumeral_digits {text : List Char} (some : digits text ≠ []) :
    IsNumeral (digits text) :=
  ⟨some, fun _ found => List.mem_takeWhile_imp found⟩

theorem sign_mem (text : List Char) : sign text ∈ [[], ['+'], ['-']] := by
  unfold sign
  split <;> simp

theorem isExponent_exponent (text : List Char) : IsExponent (exponent text) := by
  cases text with
  | nil => exact .none
  | cons mark rest =>
      simp only [exponent]
      split
      next begins =>
        simp only [Bool.and_eq_true, Bool.or_eq_true, beq_iff_eq, Bool.not_eq_true',
          List.isEmpty_eq_false_iff] at begins
        exact .power (by simpa using begins.1) (sign_mem rest)
          (isNumeral_digits begins.2)
      next => exact .none

theorem fraction_cases (text : List Char) :
    fraction text = [] ∨ ∃ decimals power, fraction text = '.' :: (decimals ++ power) ∧
      IsNumeral decimals ∧ IsExponent power := by
  unfold fraction
  split
  next behind =>
    split
    next => exact .inl rfl
    next someDigits =>
      exact .inr ⟨_, _, rfl, isNumeral_digits (by simpa using someDigits),
        isExponent_exponent _⟩
  next => exact .inl rfl

theorem fits_word {text : List Char} (isWord : IsWord text) : Fits (word text) := by
  unfold word
  split
  next isKeyword => exact .keyword isWord (List.contains_iff_mem.1 isKeyword)
  next noKeyword =>
      exact .identifier isWord fun isKeyword =>
          noKeyword (List.contains_iff_mem.2 isKeyword)

theorem fits_number {whole : List Char} (isNumeral : IsNumeral whole)
    (text : List Char) : Fits (number whole (fraction text)) := by
  rcases fraction_cases text with none | ⟨decimals, power, found, isDecimals, isPower⟩
  · rw [none]
    exact .integer isNumeral
  · rw [found]
    exact .double isNumeral isDecimals isPower

/-- The first piece of a text fits into the lexical grammar, unless nothing in
there begins with its first character. -/
theorem fits_first_or_stray (char : Char) (rest : List Char) :
    (first char rest).Fits ∨ (first char rest = .stray char ∧ begins char = false) := by
  unfold first
  split
  next blank => exact .inl (.blank blank)
  split
  next isComment =>
    left
    simp only [Bool.and_eq_true, beq_iff_eq] at isComment
    obtain ⟨rfl, slash⟩ := isComment
    obtain ⟨behind, rfl⟩ := List.head?_eq_some_iff.1 slash
    exact .comment fun found => by simpa using List.mem_takeWhile_imp found
  split
  next isAlpha =>
      exact .inl (fits_word
        (.intro isAlpha fun _ found => List.mem_takeWhile_imp found))
  split
  next isDigit =>
    left
    apply fits_number
    exact ⟨List.cons_ne_nil _ _,
      List.forall_mem_cons.2 ⟨isDigit, fun _ found => List.mem_takeWhile_imp found⟩⟩
  split
  next isComparison =>
    rw [Bool.and_eq_true] at isComparison
    exact .inl (.comparison (List.contains_iff_mem.1 isComparison.1))
  split
  next isMark => exact .inl (.mark (List.contains_iff_mem.1 isMark))
  next notBlank _ noAlpha noDigit _ noMark =>
    rw [Bool.not_eq_true] at notBlank noAlpha noDigit noMark
    exact .inr ⟨rfl, by rw [begins, notBlank, noAlpha, noDigit, noMark]; rfl⟩

/-! ### Nothing longer fits -/

theorem sign_append {sign numeral : List Char} (isSign : sign ∈ [[], ['+'], ['-']])
    (isNumeral : IsNumeral numeral) (after : List Char) :
    Piece.sign (sign ++ (numeral ++ after)) = sign := by
  simp only [List.mem_cons, List.not_mem_nil, or_false] at isSign
  rcases isSign with rfl | rfl | rfl
  · cases numeral with
    | nil => exact absurd rfl isNumeral.ne_nil
    | cons digit rest =>
        have isDigit := isNumeral.isDigit digit List.mem_cons_self
        rw [List.nil_append, List.cons_append]
        unfold Piece.sign
        split
        next equal =>
          obtain ⟨rfl, _⟩ := List.cons.inj equal
          contradiction
        next equal =>
          obtain ⟨rfl, _⟩ := List.cons.inj equal
          contradiction
        next => rfl
  · rfl
  · rfl

namespace IsNumeral

variable {numeral : List Char}

theorem exists_cons (isNumeral : IsNumeral numeral) :
    ∃ digit more, numeral = digit :: more ∧ digit.isDigit := by
  obtain ⟨digit, more, rfl⟩ := List.exists_cons_of_ne_nil isNumeral.ne_nil
  exact ⟨digit, more, rfl, isNumeral.isDigit digit List.mem_cons_self⟩

theorem isPrefix_digits (isNumeral : IsNumeral numeral) (after : List Char) :
    numeral <+: digits (numeral ++ after) :=
  isPrefix_takeWhile isNumeral.isDigit (List.prefix_append numeral after)

theorem digits_ne_nil (isNumeral : IsNumeral numeral) (after : List Char) :
    digits (numeral ++ after) ≠ [] := by
  intro none
  have found := isNumeral.isPrefix_digits after
  rw [none, List.prefix_nil] at found
  exact isNumeral.ne_nil found

end IsNumeral

namespace IsExponent

variable {power : List Char}

theorem isPrefix_exponent (isPower : IsExponent power) (after : List Char) :
    power <+: exponent (power ++ after) := by
  cases isPower with
  | none => exact List.nil_prefix
  | @power mark sign numeral isMark isSign isNumeral =>
      have begins :
          ((mark == 'e' || mark == 'E') && !(digits (numeral ++ after)).isEmpty) =
            true := by
        simpa [isNumeral.digits_ne_nil after] using isMark
      rw [List.cons_append, List.append_assoc, exponent, sign_append isSign isNumeral,
        List.drop_left, if_pos begins, List.prefix_cons_inj,
        List.prefix_append_right_inj]
      exact isNumeral.isPrefix_digits after

/-- Behind a numeral, an exponent is not mistaken for more digits. -/
theorem isPrefix_digits_append_exponent (isPower : IsExponent power)
    {decimals : List Char}
    (isDecimals : IsNumeral decimals) (after : List Char) :
    let text := decimals ++ (power ++ after)
    decimals ++ power <+: digits text ++ exponent (text.drop (digits text).length) := by
  intro text
  cases isPower with
  | none =>
      rw [List.append_nil]
      exact (isDecimals.isPrefix_digits after).trans (List.prefix_append _ _)
  | @power mark sign numeral isMark isSign isNumeral =>
      have noDigit : mark.isDigit = false := by
        simp only [List.mem_cons, List.not_mem_nil, or_false] at isMark
        rcases isMark with rfl | rfl <;> rfl
      have exact : digits text = decimals :=
        takeWhile_append_cons isDecimals.isDigit noDigit _
      rw [exact, List.drop_left, List.prefix_append_right_inj]
      exact isPrefix_exponent (.power isMark isSign isNumeral) after

end IsExponent

theorem isPrefix_fraction_of_fits {decimals power : List Char}
    (isDecimals : IsNumeral decimals) (isPower : IsExponent power) (after : List Char) :
    '.' :: (decimals ++ power) <+: fraction ('.' :: (decimals ++ power) ++ after) := by
  have some : (digits (decimals ++ (power ++ after))).isEmpty = false := by
    simpa using isDecimals.digits_ne_nil (power ++ after)
  rw [List.cons_append, List.append_assoc, fraction, some, if_neg Bool.false_ne_true,
    List.prefix_cons_inj]
  exact isPower.isPrefix_digits_append_exponent isDecimals after

theorem not_isBlank_of_isAlphanum {char : Char} (isAlphanum : char.isAlphanum) :
    isBlank char = false := by
  by_contra blank
  simp only [isBlank, Bool.not_eq_false, Bool.or_eq_true, beq_iff_eq] at blank
  rcases blank with (((rfl | rfl) | rfl) | rfl) | rfl <;> contradiction

theorem ne_slash_of_isAlphanum {char : Char} (isAlphanum : char.isAlphanum) :
    char ≠ '/' := by
  rintro rfl
  contradiction

theorem first_of_isAlpha {char : Char} (isAlpha : char.isAlpha) (rest : List Char) :
    first char rest = word (char :: rest.takeWhile Char.isAlphanum) := by
  have isAlphanum : char.isAlphanum := by simp [Char.isAlphanum, isAlpha]
  simp [first, not_isBlank_of_isAlphanum isAlphanum,
    ne_slash_of_isAlphanum isAlphanum, isAlpha]

theorem first_of_isDigit {char : Char} (isDigit : char.isDigit) (rest : List Char) :
    first char rest =
      number (char :: digits rest) (fraction (rest.drop (digits rest).length)) := by
  have isAlphanum : char.isAlphanum := by simp [Char.isAlphanum, isDigit]
  have noAlpha : char.isAlpha = false := by
    by_contra isAlpha
    rw [not_isDigit_of_isAlpha (by simpa using isAlpha)] at isDigit
    contradiction
  simp [first, not_isBlank_of_isAlphanum isAlphanum, ne_slash_of_isAlphanum isAlphanum,
    noAlpha, isDigit]

theorem IsWord.isPrefix_first {text : List Char} (isWord : IsWord text) {char : Char}
    {rest : List Char} (isInitial : text <+: char :: rest) :
    text <+: (first char rest).chars := by
  cases isWord with
  | intro isAlpha allAlphanum =>
      obtain ⟨rfl, continues⟩ := List.cons_prefix_cons.1 isInitial
      rw [first_of_isAlpha isAlpha, chars_word, List.prefix_cons_inj]
      exact isPrefix_takeWhile allAlphanum continues

/-- Whatever fits at the beginning of a text is no longer than the first piece. -/
theorem Fits.isPrefix_first {piece : Piece} (fits : piece.Fits) {char : Char}
    {rest : List Char} (isInitial : piece.chars <+: char :: rest) :
    piece.chars <+: (first char rest).chars := by
  cases fits with
  | blank _ | mark _ =>
      exact List.prefix_of_prefix_length_le isInitial (Piece.isPrefix_first char rest)
        (first_length_pos char rest)
  | @comment line inLine =>
      obtain ⟨rfl, continues⟩ := List.cons_prefix_cons.1 isInitial
      obtain ⟨after, rfl⟩ := continues
      have slashed : ∀ char ∈ '/' :: line, (char != '\n') = true := by
        intro char found
        have different : char ≠ '\n' := by
          rintro rfl
          simp [inLine] at found
        simpa using different
      have isComment : first '/' ('/' :: line ++ after) =
          .comment ('/' :: ('/' :: line ++ after).takeWhile (· != '\n')) := rfl
      rw [isComment, chars, chars, List.prefix_cons_inj]
      exact isPrefix_takeWhile slashed (List.prefix_append _ _)
  | keyword isWord _ => exact isWord.isPrefix_first isInitial
  | identifier isWord _ => exact isWord.isPrefix_first isInitial
  | integer isNumeral =>
      obtain ⟨digit, more, rfl, isDigit⟩ := isNumeral.exists_cons
      obtain ⟨rfl, continues⟩ := List.cons_prefix_cons.1 isInitial
      have moreDigits := (List.forall_mem_cons.1 isNumeral.isDigit).2
      rw [first_of_isDigit isDigit, chars_number, chars, List.cons_append,
        List.prefix_cons_inj]
      exact (isPrefix_takeWhile moreDigits continues).trans (List.prefix_append _ _)
  | @double _ decimals power isWhole isDecimals isPower =>
      obtain ⟨digit, more, rfl, isDigit⟩ := isWhole.exists_cons
      obtain ⟨rfl, after, continues⟩ := List.cons_prefix_cons.1 isInitial
      obtain rfl : rest = more ++ ('.' :: (decimals ++ power) ++ after) :=
        continues.symm.trans (List.append_assoc _ _ _)
      have moreDigits := (List.forall_mem_cons.1 isWhole.isDigit).2
      have wholeDigits :
          digits (more ++ ('.' :: (decimals ++ power) ++ after)) = more :=
        takeWhile_append_cons moreDigits rfl _
      rw [first_of_isDigit isDigit, chars_number, wholeDigits, List.drop_left, chars,
        List.cons_append, List.cons_append, List.prefix_cons_inj,
        List.prefix_append_right_inj]
      exact isPrefix_fraction_of_fits isDecimals isPower after
  | comparison isStart =>
      obtain ⟨rfl, continues⟩ := List.cons_prefix_cons.1 isInitial
      obtain ⟨after, rfl⟩ := continues
      simp only [List.mem_cons, List.not_mem_nil, or_false] at isStart
      rcases isStart with rfl | rfl | rfl
      · exact List.prefix_rfl
      · exact List.prefix_rfl
      · exact List.prefix_rfl

theorem Fits.exists_head {piece : Piece} (fits : piece.Fits) :
    ∃ char rest, piece.chars = char :: rest ∧ begins char := by
  cases fits with
  | blank isBlank => exact ⟨_, _, rfl, by simp [begins, isBlank]⟩
  | comment _ => exact ⟨_, _, rfl, by decide⟩
  | keyword isWord _ | identifier isWord _ =>
      cases isWord with
      | intro isAlpha _ => exact ⟨_, _, rfl, by simp [begins, isAlpha]⟩
  | integer isNumeral =>
      obtain ⟨digit, more, rfl, isDigit⟩ := isNumeral.exists_cons
      exact ⟨_, _, rfl, by simp [begins, isDigit]⟩
  | double isWhole _ _ =>
      obtain ⟨digit, more, rfl, isDigit⟩ := isWhole.exists_cons
      exact ⟨_, _, rfl, by simp [begins, isDigit]⟩
  | comparison isStart =>
      have isMark : ∀ char ∈ ['=', '<', '>'], begins char := by simp [begins, marks]
      exact ⟨_, _, rfl, isMark _ isStart⟩
  | mark isMark => exact ⟨_, _, rfl, by simp [begins, isMark]⟩

/-! ### The characters of a piece tell what it is -/

theorem IsWord.eq_first {text : List Char} (isWord : IsWord text) {char : Char}
    {rest : List Char} (written : text = char :: rest) :
    first char rest = word text := by
  cases isWord with
  | intro isAlpha allAlphanum =>
      obtain ⟨rfl, rfl⟩ := List.cons.inj written
      rw [first_of_isAlpha isAlpha, List.takeWhile_eq_self_iff.2 allAlphanum]

theorem fraction_of_fits {decimals power : List Char} (isDecimals : IsNumeral decimals)
    (isPower : IsExponent power) :
    fraction ('.' :: (decimals ++ power)) = '.' :: (decimals ++ power) := by
  have found := isPrefix_fraction_of_fits isDecimals isPower []
  rw [List.append_nil] at found
  exact (isPrefix_fraction _).eq_of_length_le found.length_le

/-- What fits is the first piece of the text that it consists of. -/
theorem Fits.eq_first {piece : Piece} (fits : piece.Fits) {char : Char}
    {rest : List Char} (written : piece.chars = char :: rest) :
    piece = first char rest := by
  cases fits with
  | blank isBlank =>
      obtain ⟨rfl, rfl⟩ := List.cons.inj written
      simp [first, isBlank]
  | @comment line inLine =>
      obtain ⟨rfl, rfl⟩ := List.cons.inj written
      have inLine : ∀ char ∈ line, (char != '\n') = true := by
        intro char found
        exact bne_iff_ne.2 fun equal => inLine (equal ▸ found)
      have isComment : first '/' ('/' :: line) =
          .comment ('/' :: '/' :: line.takeWhile (· != '\n')) := rfl
      rw [isComment, List.takeWhile_eq_self_iff.2 inLine]
  | keyword isWord isKeyword =>
      rw [isWord.eq_first written, word, if_pos (List.contains_iff_mem.2 isKeyword)]
  | identifier isWord noKeyword =>
      rw [isWord.eq_first written, word, if_neg (by simpa using noKeyword)]
  | integer isNumeral =>
      obtain rfl := written
      obtain ⟨isDigit, moreDigits⟩ := List.forall_mem_cons.1 isNumeral.isDigit
      rw [first_of_isDigit isDigit, digits, List.takeWhile_eq_self_iff.2 moreDigits,
        List.drop_length]
      rfl
  | @double _ decimals power isWhole isDecimals isPower =>
      obtain ⟨digit, more, rfl, isDigit⟩ := isWhole.exists_cons
      rw [chars, List.cons_append] at written
      obtain ⟨rfl, rfl⟩ := List.cons.inj written
      have moreDigits := (List.forall_mem_cons.1 isWhole.isDigit).2
      have wholeDigits : digits (more ++ '.' :: (decimals ++ power)) = more :=
        takeWhile_append_cons moreDigits rfl _
      rw [first_of_isDigit isDigit, wholeDigits, List.drop_left,
        fraction_of_fits isDecimals isPower]
      rfl
  | comparison isStart =>
      obtain ⟨rfl, rfl⟩ := List.cons.inj written
      have alone : ['=', '<', '>'].all fun char =>
          first char ['='] == .lexeme .punctuator [char, '='] := by
        decide
      exact (eq_of_beq (List.all_eq_true.1 alone _ isStart)).symm
  | mark isMark =>
      obtain ⟨rfl, rfl⟩ := List.cons.inj written
      have alone : marks.all fun mark => first mark [] == .lexeme .punctuator [mark] :=
        by decide
      exact (eq_of_beq (List.all_eq_true.1 alone _ isMark)).symm

end Piece

end StackCompiler
