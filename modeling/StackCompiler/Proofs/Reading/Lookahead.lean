import Mathlib.Data.List.Infix
import StackCompiler.Proofs.Reading.Failures

/-!
# Looking one token ahead

A parser is local if it only ever moves forward, and if its outcome does not
depend on what stands behind the next token. Work that consists of local
parsers is local, and so is the repetition of a local parser that reads
something each time.
-/

namespace StackCompiler

/-- How reading ended: with a result or with a problem, and at which cursor. -/
abbrev Outcome (α : Type) := EStateM.Result Problem Cursor α

namespace Outcome

variable {α : Type}

instance [DecidableEq α] : DecidableEq (Outcome α)
  | .ok result after, .ok other otherAfter =>
    decidable_of_iff (result = other ∧ after = otherAfter) (by simp)
  | .error problem stuck, .error other otherStuck =>
    decidable_of_iff (problem = other ∧ stuck = otherStuck) (by simp)
  | .ok _ _, .error _ _ => .isFalse (by simp)
  | .error _ _, .ok _ _ => .isFalse (by simp)

/-- The cursor at which reading ended. -/
def cursor : Outcome α → Cursor
  | .ok _ after => after
  | .error _ stuck => stuck

/-- The same outcome with other tokens behind it. -/
def before (rest : List Token) : Outcome α → Outcome α
  | .ok result after => .ok result { after with rest }
  | .error problem stuck => .error problem { stuck with rest }

end Outcome

namespace Parser

variable {α β : Type}

/-- Whether a parser moves forward and looks no further than at the next token. -/
structure Local (parser : Parser α) : Prop where
  isSuffix : ∀ start : Cursor, (Outcome.cursor (parser start)).rest <:+ start.rest
  /-- What stands behind the tokens `ahead` that are left makes no difference,
  if there are any. -/
  same : ∀ {seen ahead later : List Token} {budget : Budget}, ahead ≠ [] →
    (Outcome.cursor (parser ⟨seen ++ later, budget⟩)).rest = ahead ++ later →
    ∀ other, parser ⟨seen ++ other, budget⟩ =
      Outcome.before (ahead ++ other) (parser ⟨seen ++ later, budget⟩)

/-- Where tokens are left of those seen after reading on, some were left before. -/
theorem exists_ahead {seen middle ahead later : List Token}
    (isSuffix : middle <:+ seen ++ later) (goesOn : ahead ++ later <:+ middle)
    (some : ahead ≠ []) : ∃ between, middle = between ++ later ∧ between ≠ [] := by
  obtain ⟨more, rfl⟩ := goesOn
  rw [← List.append_assoc]
  exact ⟨more ++ ahead, rfl, List.append_ne_nil_of_right_ne_nil _ some⟩

namespace Local

theorem pure (value : α) : (Pure.pure value : Parser α).Local where
  isSuffix _ := List.suffix_rfl
  same _ ends _ := by
    obtain rfl := List.append_cancel_right ends
    rfl

theorem throw (problem : Problem) : (MonadExcept.throw problem : Parser α).Local where
  isSuffix _ := List.suffix_rfl
  same _ ends _ := by
    obtain rfl := List.append_cancel_right ends
    rfl

theorem bind {parser : Parser α} {next : α → Parser β} (first : parser.Local)
    (second : ∀ result, (next result).Local) : (parser >>= next).Local where
  isSuffix start := by
    have toFirst := first.isSuffix start
    simp only [Bind.bind, EStateM.bind]
    cases run : parser start with
    | error problem stuck =>
        rw [run] at toFirst
        exact toFirst
    | ok result between =>
        rw [run] at toFirst
        exact ((second result).isSuffix between).trans toFirst
  same {seen ahead later budget} some ends other := by
    have toFirst := first.isSuffix ⟨seen ++ later, budget⟩
    simp only [Bind.bind, EStateM.bind] at ends ⊢
    cases run : parser ⟨seen ++ later, budget⟩ with
    | error problem stuck =>
        rw [run] at ends
        rw [first.same some (by rw [run]; exact ends), run]
        rfl
    | ok result between =>
        obtain ⟨middle, left⟩ := between
        rw [run] at ends toFirst
        have goesOn := (second result).isSuffix ⟨middle, left⟩
        rw [ends] at goesOn
        obtain ⟨between, rfl, someBetween⟩ := exists_ahead toFirst goesOn some
        rw [first.same someBetween (by rw [run]; rfl), run]
        exact (second result).same some ends other

/-! ### Primitives -/

theorem peek? : Parser.peek?.Local where
  isSuffix _ := List.suffix_rfl
  same {seen ahead later budget} some ends other := by
    obtain rfl : seen = ahead := List.append_cancel_right ends
    obtain ⟨token, seen, rfl⟩ := List.exists_cons_of_ne_nil some
    rfl

theorem takeIf? (use? : Token → Option α) : (Parser.takeIf? use?).Local where
  isSuffix start := by
    obtain ⟨rest, budget⟩ := start
    cases rest with
    | nil => exact List.suffix_rfl
    | cons token rest =>
        simp only [Parser.takeIf?]
        split
        · exact List.suffix_rfl
        · exact List.suffix_cons token rest
  same {seen ahead later budget} some ends other := by
    cases seen with
    | nil =>
        have short :
            (Outcome.cursor (Parser.takeIf? use? ⟨later, budget⟩)).rest.length ≤
              later.length := by
          cases later with
          | nil => exact Nat.le_refl _
          | cons token later =>
              simp only [Parser.takeIf?]
              split <;> simp [Outcome.cursor]
        have long := congrArg List.length ends
        have positive := List.length_pos_iff.2 some
        simp only [List.nil_append, List.length_append] at long
        omega
    | cons token seen =>
        simp only [List.cons_append, Parser.takeIf?] at ends ⊢
        cases used : use? token with
        | none =>
            rw [used] at ends
            obtain rfl : token :: seen = ahead := List.append_cancel_right ends
            rfl
        | some result =>
            rw [used] at ends
            obtain rfl : seen = ahead := List.append_cancel_right ends
            rfl

theorem nested {body : Parser α} (inside : body.Local) :
    (Parser.nested body).Local where
  isSuffix start := by
    simp only [Parser.nested]
    split
    next => exact List.suffix_rfl
    next deeper _ =>
      have toBody := inside.isSuffix ⟨start.rest, deeper⟩
      revert toBody
      cases body ⟨start.rest, deeper⟩ <;> exact id
  same {seen ahead later budget} some ends other := by
    simp only [Parser.nested] at ends ⊢
    cases opened : budget.deepen? with
    | none =>
        simp only [opened] at ends
        obtain rfl : seen = ahead := List.append_cancel_right ends
        rfl
    | some deeper =>
        simp only [opened] at ends ⊢
        cases run : body ⟨seen ++ later, deeper⟩ with
        | ok result after =>
            rw [run] at ends
            rw [inside.same some (by rw [run]; exact ends), run]
            rfl
        | error problem stuck =>
            rw [run] at ends
            rw [inside.same some (by rw [run]; exact ends), run]
            rfl

theorem link : Parser.link.Local where
  isSuffix start := by
    simp only [Parser.link]
    split <;> exact List.suffix_rfl
  same {seen ahead later budget} some ends other := by
    simp only [Parser.link] at ends ⊢
    cases used : budget.extend? with
    | none =>
        simp only [used] at ends
        obtain rfl : seen = ahead := List.append_cancel_right ends
        rfl
    | some longer =>
        simp only [used] at ends
        obtain rfl : seen = ahead := List.append_cancel_right ends
        rfl

theorem unlink (links : Nat) : (Parser.unlink links).Local where
  isSuffix _ := List.suffix_rfl
  same _ ends _ := by
    obtain rfl := List.append_cancel_right ends
    rfl

/-! ### Repetitions -/

variable {step? : Parser (Option α)}

theorem isSuffix_of_repeats (each : step?.Local) {start after : Cursor}
    {results : List α} (repeats : Repeats step? start results after) :
    after.rest <:+ start.rest := by
  induction repeats with
  | nil => exact List.suffix_rfl
  | @cons start between _ _ _ reads _ ih =>
      have toFirst := each.isSuffix start
      rw [reads] at toFirst
      exact ih.trans toFirst

theorem repeats_same (each : step?.Local) {start after : Cursor} {results : List α}
    (repeats : Repeats step? start results after) {seen ahead later : List Token}
    {budget left : Budget} (isStart : start = ⟨seen ++ later, budget⟩)
    (some : ahead ≠ []) (ends : after = ⟨ahead ++ later, left⟩) (other : List Token) :
    Repeats step? ⟨seen ++ other, budget⟩ results ⟨ahead ++ other, left⟩ := by
  induction repeats generalizing seen budget with
  | nil =>
      rw [isStart, Cursor.mk.injEq] at ends
      obtain ⟨same, rfl⟩ := ends
      obtain rfl := List.append_cancel_right same
      exact .nil
  | @cons start between _ _ _ reads repeats ih =>
      subst isStart ends
      have toFirst := each.isSuffix ⟨seen ++ later, budget⟩
      rw [reads] at toFirst
      obtain ⟨middle, kept⟩ := between
      obtain ⟨between, rfl, someBetween⟩ :=
        exists_ahead toFirst (each.isSuffix_of_repeats repeats) some
      have readsOther := each.same someBetween (by rw [reads]; rfl) other
      rw [reads] at readsOther
      exact .cons readsOther (ih rfl rfl)

theorem many (each : step?.Local)
    (progress : ∀ {start result after}, step? start = .ok (some result) after →
      after.rest.length < start.rest.length) : (Parser.many step?).Local where
  isSuffix start := by
    cases run : Parser.many step? start with
    | ok results after =>
        obtain ⟨middle, repeats, stops⟩ := (many_eq_ok_iff progress).1 run
        have toLast := each.isSuffix middle
        rw [stops] at toLast
        exact toLast.trans (each.isSuffix_of_repeats repeats)
    | error problem stuck =>
        obtain ⟨results, middle, repeats, fails⟩ := (many_eq_error_iff progress).1 run
        have toLast := each.isSuffix middle
        rw [fails] at toLast
        exact toLast.trans (each.isSuffix_of_repeats repeats)
  same {seen ahead later budget} some ends other := by
    cases run : Parser.many step? ⟨seen ++ later, budget⟩ with
    | ok results after =>
        obtain ⟨⟨middle, kept⟩, repeats, stops⟩ := (many_eq_ok_iff progress).1 run
        have toLast := each.isSuffix ⟨middle, kept⟩
        rw [run] at ends
        rw [stops, show (Outcome.cursor (.ok none after)).rest = _ from ends] at toLast
        obtain ⟨between, rfl, someBetween⟩ :=
          exists_ahead (each.isSuffix_of_repeats repeats) toLast some
        have stopsOther := each.same some (by rw [stops]; exact ends) other
        rw [stops] at stopsOther
        exact (many_eq_ok_iff progress).2
          ⟨_, each.repeats_same repeats rfl someBetween rfl other, stopsOther⟩
    | error problem stuck =>
        obtain ⟨results, ⟨middle, kept⟩, repeats, fails⟩ :=
          (many_eq_error_iff progress).1 run
        have toLast := each.isSuffix ⟨middle, kept⟩
        rw [run] at ends
        rw [fails, show (Outcome.cursor
          (.error problem stuck : Outcome (Option α))).rest = _ from ends]
          at toLast
        obtain ⟨between, rfl, someBetween⟩ :=
          exists_ahead (each.isSuffix_of_repeats repeats) toLast some
        have failsOther := each.same some (by rw [fails]; exact ends) other
        rw [fails] at failsOther
        exact (many_eq_error_iff progress).2
          ⟨results, _, each.repeats_same repeats rfl someBetween rfl other, failsOther⟩

end Local

end Parser

end StackCompiler
