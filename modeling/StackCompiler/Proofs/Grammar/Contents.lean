import StackCompiler.Proofs.Grammar.Sentence

/-!
# The phrases in sentences

A sentence holds phrases, each of which is nested more deeply than the sentence
by itself. What a sentence takes of the operator links is what the greediest of
its phrases takes.
-/

namespace StackCompiler.Sentence

mutual

/-- The phrases that a sentence holds. -/
def phrases : Sentence → List (Phrase .whole)
  | block body => phrasesAll body
  | ifThen condition consequence => condition :: consequence.phrases
  | ifElse condition consequence alternative =>
      condition :: (consequence.phrases ++ alternative.phrases)
  | loop condition body => condition :: body.phrases
  | print value => [value]
  | assign _ value => [value]

/-- The phrases that some sentences hold. -/
def phrasesAll : List Sentence → List (Phrase .whole)
  | [] => []
  | first :: rest => first.phrases ++ phrasesAll rest

end

mutual

theorem nest_lt_of_mem_phrases : (sentence : Sentence) → ∀ phrase ∈ sentence.phrases,
    phrase.nest < sentence.nest
  | block body => by
      rw [phrases, nest]
      intro phrase found
      exact Nat.lt_succ_of_lt (nest_lt_of_mem_phrasesAll body phrase found)
  | ifThen condition consequence => by
      have inner := consequence.nest_lt_of_mem_phrases
      rw [phrases, nest, List.forall_mem_cons]
      refine ⟨by omega, fun phrase found => ?_⟩
      have deeper := inner phrase found
      omega
  | ifElse condition consequence alternative => by
      have inner := consequence.nest_lt_of_mem_phrases
      have innerElse := alternative.nest_lt_of_mem_phrases
      rw [phrases, nest, List.forall_mem_cons, List.forall_mem_append]
      refine ⟨by omega, fun phrase found => ?_, fun phrase found => ?_⟩
      · have deeper := inner phrase found
        omega
      · have deeper := innerElse phrase found
        omega
  | loop condition body => by
      have inner := body.nest_lt_of_mem_phrases
      rw [phrases, nest, List.forall_mem_cons]
      refine ⟨by omega, fun phrase found => ?_⟩
      have deeper := inner phrase found
      omega
  | print value => by simp [phrases, nest]
  | assign target value => by simp [phrases, nest]

theorem nest_lt_of_mem_phrasesAll :
    (sentences : List Sentence) → ∀ phrase ∈ phrasesAll sentences,
      phrase.nest < nestAll sentences
  | [] => by simp [phrasesAll]
  | first :: rest => by
      have inner := first.nest_lt_of_mem_phrases
      have innerRest := nest_lt_of_mem_phrasesAll rest
      rw [phrasesAll, nestAll, List.forall_mem_append]
      exact ⟨fun phrase found => Nat.lt_of_lt_of_le (inner phrase found)
          (Nat.le_max_left _ _), fun phrase found =>
          Nat.lt_of_lt_of_le (innerRest phrase found) (Nat.le_max_right _ _)⟩

end

mutual

theorem peak_le_iff {bound : Nat} : (sentence : Sentence) →
    (sentence.peak ≤ bound ↔ ∀ phrase ∈ sentence.phrases, phrase.peak ≤ bound)
  | block body => by rw [peak, phrases, peakAll_le_iff body]
  | ifThen condition consequence => by
      rw [peak, phrases, Nat.max_le, List.forall_mem_cons, consequence.peak_le_iff]
  | ifElse condition consequence alternative => by
      rw [peak, phrases, Nat.max_le, Nat.max_le, List.forall_mem_cons,
        List.forall_mem_append, consequence.peak_le_iff, alternative.peak_le_iff]
  | loop condition body => by
      rw [peak, phrases, Nat.max_le, List.forall_mem_cons, body.peak_le_iff]
  | print value => by simp [peak, phrases]
  | assign target value => by simp [peak, phrases]

theorem peakAll_le_iff {bound : Nat} : (sentences : List Sentence) →
    (peakAll sentences ≤ bound ↔ ∀ phrase ∈ phrasesAll sentences, phrase.peak ≤ bound)
  | [] => by simp [peakAll, phrasesAll]
  | first :: rest => by
      rw [peakAll, phrasesAll, Nat.max_le, List.forall_mem_append, first.peak_le_iff,
        peakAll_le_iff rest]

end

end StackCompiler.Sentence
