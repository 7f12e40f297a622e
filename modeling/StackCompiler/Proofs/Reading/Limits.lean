import StackCompiler.Proofs.Reading.Language

/-!
# What the limits allow

A form takes a number of nesting levels and of operator links at the same time.
The limits allow it if there is room for both beside what is in use.
-/

namespace StackCompiler

namespace Budget

variable {budget deeper longer : Budget} {nest peak : Nat}

/-- Whether there is room for `nest` more nesting levels and `peak` more
operator links. -/
def Allows (budget : Budget) (nest peak : Nat) : Prop :=
  budget.depth + nest ≤ maxNesting ∧ budget.chain + peak ≤ maxChain

theorem allows_zero (budget : Budget) : budget.Allows 0 0 :=
  ⟨budget.depth_le, budget.chain_le⟩

theorem allows_max_iff {nestLeft nestRight peakLeft peakRight : Nat} :
    budget.Allows (max nestLeft nestRight) (max peakLeft peakRight) ↔
      budget.Allows nestLeft peakLeft ∧ budget.Allows nestRight peakRight := by
  simp only [Allows]
  omega

theorem eq_of_depth_of_chain {budget other : Budget}
    (depth : budget.depth = other.depth) (chain : budget.chain = other.chain) :
    budget = other := by
  cases budget
  cases other
  simp_all

theorem deepen?_eq_some_iff :
    budget.deepen? = some deeper ↔
      deeper.depth = budget.depth + 1 ∧ deeper.chain = budget.chain := by
  unfold deepen?
  have bound := deeper.depth_le
  split
  next room =>
    rw [Option.some.injEq]
    constructor
    · intro equal
      subst equal
      exact ⟨rfl, rfl⟩
    · intro holds
      rcases holds with ⟨depth, chain⟩
      exact eq_of_depth_of_chain depth.symm chain.symm
  next noRoom =>
    constructor
    · intro opened
      contradiction
    · intro holds
      rcases holds with ⟨depth, _⟩
      omega

theorem extend?_eq_some_iff :
    budget.extend? = some longer ↔
      longer.depth = budget.depth ∧ longer.chain = budget.chain + 1 := by
  unfold extend?
  have bound := longer.chain_le
  split
  next room =>
    rw [Option.some.injEq]
    constructor
    · intro equal
      subst equal
      exact ⟨rfl, rfl⟩
    · intro holds
      rcases holds with ⟨depth, chain⟩
      exact eq_of_depth_of_chain depth.symm chain.symm
  next noRoom =>
    constructor
    · intro used
      contradiction
    · intro holds
      rcases holds with ⟨_, chain⟩
      omega

/-- Opening one more level leaves room for one level less. -/
theorem exists_deepen?_and_allows_iff :
    (∃ deeper, budget.deepen? = some deeper ∧ deeper.Allows nest peak) ↔
      budget.Allows (nest + 1) peak := by
  constructor
  · intro holds
    rcases holds with ⟨deeper, opened, allows⟩
    obtain ⟨depth, chain⟩ := deepen?_eq_some_iff.1 opened
    simp only [Allows] at *
    omega
  · intro holds
    rcases holds with ⟨room, links⟩
    have open' : budget.depth + 1 ≤ maxNesting := by
      omega
    refine ⟨⟨budget.depth + 1, budget.chain, open', budget.chain_le⟩,
      deepen?_eq_some_iff.2 ⟨rfl, rfl⟩, ?_⟩
    simp only [Allows]
    omega

end Budget

namespace Language

variable {α : Type}

/-- The language read one nesting level deeper. -/
def deepened (language : Language α) : Language α :=
  { language with Fits budget form :=
    ∃ deeper, budget.deepen? = some deeper ∧ language.Fits deeper form }

end Language

namespace Parser.Reads

variable {α : Type} {parser : Parser α} {language : Language α}

theorem nested (reads : parser.Reads language) :
    (Parser.nested parser).Reads language.deepened := by
  intro before result after
  rw [nested_eq_ok_iff]
  constructor
  · intro accepted
    rcases accepted with ⟨deeper, inner, opened, readsBody, rfl⟩
    obtain ⟨same, form, meaning, fits, spells, closed⟩ := reads.iff.1 readsBody
    rw [same]
    exact ⟨Budget.surface_of_deepen? opened, form, meaning, ⟨deeper, opened, fits⟩,
      spells, closed⟩
  · intro derived
    rcases derived with ⟨same, form, meaning, ⟨deeper, opened, fits⟩, spells, closed⟩
    obtain ⟨rest, budget⟩ := after
    obtain rfl : budget = before.budget := same
    refine ⟨deeper, ⟨rest, deeper⟩, opened,
      reads.iff.2 ⟨rfl, form, meaning, fits, spells, closed⟩, ?_⟩
    rw [Budget.surface_of_deepen? opened]

/-- Only what fits into the limits matters. -/
theorem congr {Fits : Budget → language.Form → Prop} (reads : parser.Reads language)
    (same : ∀ budget form, language.Fits budget form ↔ Fits budget form) :
    parser.Reads { language with Fits } := by
  obtain rfl : language.Fits = Fits := by
    funext budget form
    exact propext (same budget form)
  exact reads

end Parser.Reads

end StackCompiler
