import StackCompiler.Proofs.Grammar.Composition
import StackCompiler.Proofs.Token.Spaced

/-!
# Sample derivations

The simplest forms of the grammar, and phrases in which an operator
links any number of operands. All that they are written with fits into
the lexical grammar.
-/

namespace StackCompiler

theorem UnaryOp.fits_symbol (operator : UnaryOp) :
    (Lexeme.mark operator.symbol).Fits := by
  cases operator with
  | negate => exact .mark (by decide)
  | not => exact .mark (by decide)

theorem BinaryOp.fits_symbol (operator : BinaryOp) :
    (Lexeme.mark operator.symbol).Fits := by
  cases operator with
  | equal => exact .comparison (by decide)
  | lessEqual => exact .comparison (by decide)
  | greaterEqual => exact .comparison (by decide)
  | _ => exact .mark (by decide)

/-- The simplest identifier. -/
def Lexeme.letter : Lexeme := .identifier "a"

theorem Lexeme.fits_letter : letter.Fits :=
  .identifier (.intro (by decide) (List.forall_mem_nil _)) (by decide)

theorem Lexeme.fits_zero : (integer "0").Fits :=
  .integer ⟨by decide, List.forall_mem_singleton.2 rfl⟩

namespace Phrase

/-- A phrase of any rank that consists of an operand. -/
def ofOperand (operand : Phrase .operand) : (rank : Rank) → Phrase rank
  | .operand => operand
  | .level .product => single operand
  | .level .sum => @single .sum (@single .product operand)
  | .level .comparison => @single .comparison (@single .sum (@single .product operand))
  | .level .conjunction =>
    @single .conjunction (@single .comparison (@single .sum (@single .product operand)))
  | .level .disjunction =>
    @single .disjunction
      (@single .conjunction
        (@single .comparison (@single .sum (@single .product operand))))

section

variable (operand : Phrase .operand) (rank : Rank)

@[simp] theorem lexemes_ofOperand :
    (operand.ofOperand rank).lexemes = operand.lexemes := by
  rcases rank with _ | ⟨_ | _ | _ | _ | _⟩ <;> rfl

@[simp] theorem tree_ofOperand : (operand.ofOperand rank).tree = operand.tree := by
  rcases rank with _ | ⟨_ | _ | _ | _ | _⟩ <;> rfl

@[simp] theorem nest_ofOperand : (operand.ofOperand rank).nest = operand.nest := by
  rcases rank with _ | ⟨_ | _ | _ | _ | _⟩ <;> rfl

@[simp] theorem peak_ofOperand : (operand.ofOperand rank).peak = operand.peak := by
  rcases rank with _ | ⟨_ | _ | _ | _ | _⟩ <;> rfl

end

/-- The simplest identifier, as a phrase of any rank. -/
def letter (rank : Rank) : Phrase rank := (designator ⟨"a", []⟩).ofOperand rank

@[simp] theorem lexemes_letter (rank : Rank) : (letter rank).lexemes = [.letter] :=
  lexemes_ofOperand _ rank

theorem fits_letter {rank : Rank} : ∀ lexeme ∈ (letter rank).lexemes, lexeme.Fits := by
  rw [lexemes_letter, List.forall_mem_singleton]
  exact Lexeme.fits_letter

@[simp] theorem nest_letter (rank : Rank) : (letter rank).nest = 1 :=
  nest_ofOperand _ rank

@[simp] theorem peak_letter (rank : Rank) : (letter rank).peak = 0 :=
  peak_ofOperand _ rank

/-- An operator of a level links a number of identifiers to a first operand. -/
def linked {level : Level} (grouped : level ≠ .comparison) (operator : BinaryOp)
    (ofLevel : operator.level = level) (first : Phrase level.tighter) :
    Nat → Phrase (.level level)
  | 0 => single first
  | more + 1 =>
      link grouped
        (linked grouped operator ofLevel first more) operator ofLevel (letter _)

section

variable {level : Level} (grouped : level ≠ .comparison) (operator : BinaryOp)
  (ofLevel : operator.level = level) (first : Phrase level.tighter) (count : Nat)

@[simp] theorem links_linked :
    (linked grouped operator ofLevel first count).links = count := by
  induction count with
  | zero => rfl
  | succ count ih => rw [linked, links, ih]

@[simp] theorem nest_linked :
    (linked grouped operator ofLevel first count).nest = first.nest := by
  induction count with
  | zero => rfl
  | succ count ih => rw [linked, nest, ih, nest_letter, Nat.max_eq_left first.nest_pos]

@[simp] theorem peak_linked :
    (linked grouped operator ofLevel first count).peak = max first.peak count := by
  induction count with
  | zero => exact (Nat.max_zero _).symm
  | succ count ih =>
      rw [linked, peak, ih, links_linked, peak_letter]
      omega

theorem fits_linked (fits : ∀ lexeme ∈ first.lexemes, lexeme.Fits) :
    ∀ lexeme ∈ (linked grouped operator ofLevel first count).lexemes, lexeme.Fits := by
  induction count with
  | zero => exact fits
  | succ count ih =>
      rw [linked, lexemes, lexemes_letter, List.forall_mem_append, List.forall_mem_cons,
        List.forall_mem_singleton]
      exact ⟨ih, operator.fits_symbol, Lexeme.fits_letter⟩

end

theorem fits_parens {content : Phrase .whole}
    (fits : ∀ lexeme ∈ content.lexemes, lexeme.Fits) :
    ∀ lexeme ∈ (parens content).lexemes, lexeme.Fits := by
  rw [lexemes, List.forall_mem_cons, List.forall_mem_append, List.forall_mem_singleton]
  exact ⟨.mark (by decide), fits, .mark (by decide)⟩

end Phrase

/-! ### Programs that print -/

theorem Sentence.fits_print {value : Phrase .whole}
    (fits : ∀ lexeme ∈ value.lexemes, lexeme.Fits) :
    ∀ lexeme ∈ (print value).lexemes, lexeme.Fits := by
  rw [lexemes, List.forall_mem_cons, List.forall_mem_append, List.forall_mem_singleton]
  exact ⟨Lexeme.fits_keyword (by decide), fits, .mark (by decide)⟩

/-- The simplest sentence. -/
def Sentence.simple : Sentence := .print (.letter .whole)

theorem Sentence.fits_simple : ∀ lexeme ∈ simple.lexemes, lexeme.Fits :=
  fits_print Phrase.fits_letter

namespace Composition

/-- A program that prints the value of a phrase. -/
def printing (value : Phrase .whole) : Composition := ⟨[], .print value, []⟩

theorem fits_printing {value : Phrase .whole}
    (fits : ∀ lexeme ∈ value.lexemes, lexeme.Fits) :
    ∀ lexeme ∈ (printing value).lexemes, lexeme.Fits := by
  have written : (printing value).lexemes = (Sentence.print value).lexemes :=
    List.append_nil _
  rw [written]
  exact Sentence.fits_print fits

end Composition

end StackCompiler
