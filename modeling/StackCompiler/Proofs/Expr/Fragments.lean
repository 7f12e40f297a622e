import Mathlib.Data.Bool.Count
import StackCompiler.Proofs.Expr.Decoding
import StackCompiler.Proofs.Expr.Origins

/-!
# What a fragment leaves open

Negation and subtraction are both written as a minus sign, so different
expressions can have the same fragment (`not_injective_fragment`). But that is
all a fragment leaves open: expressions with the same fragment negate and
subtract equally often, and they are the same as soon as the same minus signs
subtract (`fragment_determines`).
-/

namespace StackCompiler

namespace Item

variable {items others : List Item}

theorem forall₂_alike (formed : ∀ item ∈ items, item.Formed)
    (formedOthers : ∀ other ∈ others, other.Formed)
    (same : items.map word = others.map word) : List.Forall₂ Alike items others := by
  induction items generalizing others with
  | nil =>
      obtain rfl := List.map_eq_nil_iff.1 same.symm
      exact .nil
  | cons item items ih =>
      obtain ⟨other, others, rfl, sameWord, sameRest⟩ :=
        List.map_eq_cons_iff.1 same.symm
      rw [List.forall_mem_cons] at formed formedOthers
      exact .cons (alike_of_word formed.1 formedOthers.1 sameWord.symm)
        (ih formed.2 formedOthers.2 sameRest.symm)

theorem map_word_of_alike (alike : List.Forall₂ Alike items others) :
    items.map word = others.map word := by
  induction alike with
  | nil => rfl
  | cons alike _ ih =>
      rw [List.map_cons, List.map_cons, ih]
      rcases alike with rfl | ⟨rfl, rfl⟩ | ⟨rfl, rfl⟩ <;> rfl

/-- What does not depend on how many operands a minus sign takes is
counted equally often. -/
theorem countP_eq_of_alike (counts : Item → Bool)
    (alike : List.Forall₂ Alike items others)
    (same : counts (.unary .negate) = counts (.binary .subtract)) :
    items.countP counts = others.countP counts := by
  induction alike with
  | nil => rfl
  | cons alike _ ih =>
      rw [List.countP_cons, List.countP_cons, ih]
      rcases alike with rfl | ⟨rfl, rfl⟩ | ⟨rfl, rfl⟩
      · rfl
      · rw [same]
      · rw [same]

theorem eq_of_minuses (alike : List.Forall₂ Alike items others)
    (same : minuses items = minuses others) : items = others := by
  induction alike with
  | nil => rfl
  | cons alike _ ih =>
      rcases alike with rfl | ⟨rfl, rfl⟩ | ⟨rfl, rfl⟩
      · rename_i item _ _ _
        simp only [minuses, List.filterMap_cons] at same
        cases minus : item.minus? with
        | none =>
            rw [minus] at same
            rw [ih same]
        | some takesTwo =>
            rw [minus] at same
            rw [ih (List.cons.inj same).2]
      · simp [minuses, minus?] at same
      · simp [minuses, minus?] at same

theorem eq_replicate_of_count (sign : Bool) {signs : List Bool}
    (none : signs.count (!sign) = 0) :
    signs = List.replicate (signs.count sign) sign := by
  refine List.eq_replicate_iff.2 ⟨?_, fun other found => ?_⟩
  · rw [← List.count_not_add_count signs sign, none, Nat.zero_add]
  · have different : other ≠ !sign := by
      intro equal
      subst equal
      exact List.count_eq_zero.1 none found
    simpa using different

/-- Signs of which all are alike are as many as they are. -/
theorem eq_of_count_eq_zero (sign : Bool) {signs others : List Bool}
    (none : signs.count (!sign) = 0) (noneToo : others.count (!sign) = 0)
    (same : signs.count sign = others.count sign) : signs = others := by
  rw [eq_replicate_of_count sign none, eq_replicate_of_count sign noneToo, same]

theorem minuses_append (first second : List Item) :
    minuses (first ++ second) = minuses first ++ minuses second := List.filterMap_append

/-- Whether an item is written as a minus sign. -/
def isMinus (item : Item) : Bool := item.minus?.isSome

/-- Whether an item is an operand. -/
def isOperand : Item → Bool
  | number _ => true
  | designator _ => true
  | _ => false

/-- Whether an item is an operator with two operands other than subtraction. -/
def joins : Item → Bool
  | binary operator => operator != .subtract
  | _ => false

end Item

namespace Expr

open Item

/-- Every operator with two operands joins one more of them. -/
theorem countP_isOperand (expr : Expr) :
    expr.items.countP isOperand = expr.items.countP joins + expr.subtractions + 1 := by
  induction expr with
  | number text => rfl
  | designator target => rfl
  | unary operator operand ih =>
      simp [items, List.countP_append, ih, subtractions, isOperand, joins]
  | binary operator left right ihLeft ihRight =>
      cases operator <;>
        simp [items, List.countP_append, ihLeft, ihRight, subtractions,
            isOperand, joins] <;> omega

theorem count_minuses (expr : Expr) :
    (minuses expr.items).count false = expr.negations ∧
      (minuses expr.items).count true = expr.subtractions := by
  induction expr with
  | number text => exact ⟨rfl, rfl⟩
  | designator target => exact ⟨rfl, rfl⟩
  | unary operator operand ih =>
      rw [items, minuses_append, List.count_append, List.count_append, ih.1, ih.2]
      cases operator <;> exact ⟨rfl, rfl⟩
  | binary operator left right ihLeft ihRight =>
      rw [items, minuses_append, minuses_append, List.count_append, List.count_append,
        List.count_append, List.count_append, ihLeft.1, ihLeft.2, ihRight.1, ihRight.2]
      cases operator <;> exact ⟨rfl, rfl⟩

theorem countP_isMinus (expr : Expr) :
    expr.items.countP isMinus = expr.negations + expr.subtractions := by
  have lengths : (minuses expr.items).length = expr.items.countP isMinus := by
    rw [minuses, List.length_filterMap_eq_countP]
    rfl
  rw [← lengths, ← List.count_true_add_count_false, expr.count_minuses.1,
    expr.count_minuses.2, Nat.add_comm]

variable {expr other : Expr}

theorem fragment_eq_iff (formed : expr.Formed) (formedOther : other.Formed) :
    expr.fragment = other.fragment ↔ List.Forall₂ Alike expr.items other.items := by
  constructor
  · intro same
    apply forall₂_alike (formed_of_mem_items formed) (formed_of_mem_items formedOther)
    rw [← words_eq_map_items, ← words_eq_map_items, ← wordsOf_fragment formed, same,
      wordsOf_fragment formedOther]
  · intro alike
    rw [fragment, fragment, words_eq_map_items, words_eq_map_items,
      map_word_of_alike alike]

/-- Expressions that differ only in which minus signs subtract, subtract and
negate equally often. -/
theorem subtractions_and_negations_of_alike
    (alike : List.Forall₂ Alike expr.items other.items) :
    expr.subtractions = other.subtractions ∧ expr.negations = other.negations := by
  have operands := countP_eq_of_alike isOperand alike rfl
  have joining := countP_eq_of_alike joins alike rfl
  have signs := countP_eq_of_alike isMinus alike rfl
  rw [countP_isOperand, countP_isOperand] at operands
  rw [countP_isMinus, countP_isMinus] at signs
  omega

theorem eq_iff_minuses_of_alike (alike : List.Forall₂ Alike expr.items other.items) :
    expr = other ↔ minuses expr.items = minuses other.items := by
  constructor
  · intro equal
    subst equal
    rfl
  · intro same
    exact items_injective (eq_of_minuses alike same)

/-- If nothing is negated, or nothing subtracted, then how often the other is
done says what each minus sign does. -/
theorem minuses_eq_of_count (sameSubtractions : expr.subtractions = other.subtractions)
    (sameNegations : expr.negations = other.negations)
    (none : expr.negations = 0 ∨ expr.subtractions = 0) :
    minuses expr.items = minuses other.items := by
  rw [← expr.count_minuses.1, ← other.count_minuses.1] at sameNegations
  rw [← expr.count_minuses.2, ← other.count_minuses.2] at sameSubtractions
  rw [← expr.count_minuses.1, ← expr.count_minuses.2] at none
  rcases none with none | none
  · exact eq_of_count_eq_zero true none (sameNegations ▸ none) sameSubtractions
  · exact eq_of_count_eq_zero false none (sameSubtractions ▸ none) sameNegations

/-! ### A fragment of two expressions -/

/-- The expression `a - -b`. -/
def minusNegation : Expr :=
  .binary .subtract (.designator ⟨"a", []⟩) (.unary .negate (.designator ⟨"b", []⟩))

/-- The expression `-(a - b)`. -/
def negatedDifference : Expr :=
  .unary .negate (.binary .subtract (.designator ⟨"a", []⟩) (.designator ⟨"b", []⟩))

theorem isRead_of_print {source : String} {value : Expr}
    (reads : (readUnit source false).outcome = .ok (⟨[], [.print value]⟩, [])) :
    value.IsRead :=
  ⟨source, false, _, [], reads, by
      simp [Stmt.expressionsAll, Stmt.expressions, mem_parts_self]⟩

theorem isRead_minusNegation : minusNegation.IsRead := by
  have reads : (readUnit "print a- -b;" false).outcome =
      .ok (⟨[], [.print minusNegation]⟩, []) := by
    decide +kernel
  exact isRead_of_print reads

theorem isRead_negatedDifference : negatedDifference.IsRead := by
  have reads : (readUnit "print -(a-b);" false).outcome =
      .ok (⟨[], [.print negatedDifference]⟩, []) := by
    decide +kernel
  exact isRead_of_print reads

/-- Different expressions have the same fragment if and only if some minus signs negate
in one of them and subtract in the other. A stack machine that is told which of them
subtract finds out the expression. -/
theorem fragment_determines (first second : Expr) (isRead : first.IsRead)
    (isReadToo : second.IsRead) :
    (first.fragment = second.fragment ↔ List.Forall₂ Alike first.items second.items) ∧
    (first.fragment = second.fragment →
      (first.subtractions = second.subtractions ∧ first.negations = second.negations) ∧
      (first = second ↔ minuses first.items = minuses second.items) ∧
      (first.negations = 0 ∨ first.subtractions = 0 → first = second)) ∧
    decode (minuses first.items) first.fragment = some first.verbatim := by
  have alikeIff := fragment_eq_iff isRead.formed isReadToo.formed
  refine ⟨alikeIff, fun same => ?_, decode_fragment isRead.formed⟩
  have alike := alikeIff.1 same
  have counts := subtractions_and_negations_of_alike alike
  have sameIff := eq_iff_minuses_of_alike alike
  exact ⟨counts, sameIff,
    fun none => sameIff.2 (minuses_eq_of_count counts.1 counts.2 none)⟩

/-- The fragment of both expressions is `a b - -`, of which the first minus sign
negates in one of them and subtracts in the other. -/
theorem fragment_determines_negatedDifference :
    minusNegation.fragment = negatedDifference.fragment ∧
      minuses minusNegation.items ≠ minuses negatedDifference.items ∧
      minusNegation.subtractions = negatedDifference.subtractions ∧
      decode [false, true] minusNegation.fragment = some minusNegation.verbatim := by
  have determines :=
    fragment_determines minusNegation negatedDifference isRead_minusNegation
    isRead_negatedDifference
  have same : minusNegation.fragment = negatedDifference.fragment := by decide
  refine ⟨same, fun sameMinuses => ?_, (determines.2.1 same).1.1, determines.2.2⟩
  have equal := (determines.2.1 same).2.1.2 sameMinuses
  contradiction

/-- An expression is not determined by its fragment. -/
theorem not_injective_fragment :
    ¬ ∀ first second : Expr, first.IsRead → second.IsRead →
      first.fragment = second.fragment → first = second := by
  intro injective
  have same := injective minusNegation negatedDifference isRead_minusNegation
    isRead_negatedDifference
    (by decide)
  contradiction

end Expr

end StackCompiler
