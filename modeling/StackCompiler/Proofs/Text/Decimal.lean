import StackCompiler.Text.Decimal

/-!
# What decimal numbers of 64 bits denote

A text denotes a number if it consists of decimal digits, with a sign or
without, and the number lies in the range of a signed word of 64 bits. Reading
gives exactly the number denoted. A numeral, however long, is read as the number
that it stands for, or this is too large (`readWord_numeral`), and the number is
written as the numeral without its leading zeros (`toDigits_value`).
-/

namespace StackCompiler.Text.Decimal

/-- The number that decimal digits stand for behind other digits that
stand for `before`. -/
def valueBehind (before : Nat) (digits : List Char) : Nat :=
  digits.foldl (fun value char => value * 10 + (char.toNat - '0'.toNat)) before

/-- The number that decimal digits stand for. -/
def value (digits : List Char) : Nat := valueBehind 0 digits

/-- Which signed number of 64 bits a text denotes. -/
inductive Denotes : List Char → Int → Prop where
  | unsigned {digits : List Char} : digits ≠ [] → (∀ char ∈ digits, char.isDigit) →
      value digits ≤ maxWord → Denotes digits (value digits)
  | positive {digits : List Char} : digits ≠ [] → (∀ char ∈ digits, char.isDigit) →
      value digits ≤ maxWord → Denotes ('+' :: digits) (value digits)
  | negative {digits : List Char} : digits ≠ [] → (∀ char ∈ digits, char.isDigit) →
      value digits ≤ maxWord + 1 → Denotes ('-' :: digits) (-value digits)

theorem le_valueBehind (before : Nat) (digits : List Char) :
    before ≤ valueBehind before digits := by
  induction digits generalizing before with
  | nil => exact Nat.le_refl _
  | cons char rest ih =>
      have later := ih (before * 10 + (char.toNat - '0'.toNat))
      rw [valueBehind, List.foldl_cons, ← valueBehind]
      omega

/-- Digits never make a number smaller, so it does not matter that the limit is
checked at every digit. -/
theorem appendWithin_eq_ok_iff {limit before number : Nat} {beyond : Fault}
    {digits : List Char} (within : before ≤ limit) :
    appendWithin limit beyond before digits = .ok number ↔
    (∀ char ∈ digits, char.isDigit) ∧ valueBehind before digits ≤ limit ∧
    number = valueBehind before digits := by
  induction digits generalizing before with
  | nil =>
      rw [appendWithin, Except.ok.injEq]
      constructor
      · intro equal
        subst equal
        exact ⟨by simp, within, rfl⟩
      · intro holds
        rcases holds with ⟨_, _, rfl⟩
        rfl
  | cons char rest ih =>
      rw [appendWithin, digit?, List.forall_mem_cons]
      by_cases isDigit : char.isDigit
      next =>
        have larger := le_valueBehind (before * 10 + (char.toNat - '0'.toNat)) rest
        rw [if_pos isDigit]
        simp only [isDigit, true_and]
        split
        next inside => exact ih inside
        next outside =>
          constructor
          · intro failed
            contradiction
          · intro holds
            rcases holds with ⟨_, small, _⟩
            rw [valueBehind, List.foldl_cons, ← valueBehind] at small
            exact absurd (Nat.le_trans larger small) outside
      next =>
        simp [isDigit]

theorem map_appendWithin_eq_ok_iff {limit : Nat} {beyond : Fault} {digits : List Char}
    {sign : Nat → Int} {number : Int} :
    (appendWithin limit beyond 0 digits).map sign = .ok number ↔
    (∀ char ∈ digits, char.isDigit) ∧ value digits ≤ limit ∧
    number = sign (value digits) := by
  cases found : appendWithin limit beyond 0 digits with
  | error fault =>
      constructor
      · intro failed
        contradiction
      · intro holds
        rcases holds with ⟨allDigits, small, rfl⟩
        rw [(appendWithin_eq_ok_iff (Nat.zero_le _)).2 ⟨allDigits, small, rfl⟩] at found
        contradiction
  | ok read =>
      obtain ⟨allDigits, small, rfl⟩ := (appendWithin_eq_ok_iff (Nat.zero_le _)).1 found
      simp only [Except.map, Except.ok.injEq]
      constructor
      · intro equal
        subst equal
        exact ⟨allDigits, small, rfl⟩
      · intro holds
        rcases holds with ⟨_, _, rfl⟩
        rfl

theorem readWord_of_digit {char : Char} {rest : List Char} (isDigit : char.isDigit) :
    readWord (char :: rest) =
      (appendWithin maxWord .tooLarge 0 (char :: rest)).map Int.ofNat := by
  have notPlus : char ≠ '+' := by
    intro equal
    subst equal
    contradiction
  have notMinus : char ≠ '-' := by
    intro equal
    subst equal
    contradiction
  simp [readWord, notPlus, notMinus]

theorem readWord_positive {digits : List Char} (some : digits ≠ []) :
    readWord ('+' :: digits) =
      (appendWithin maxWord .tooLarge 0 digits).map Int.ofNat := by
  cases digits with
  | nil => contradiction
  | cons char rest => rfl

theorem readWord_negative {digits : List Char} (some : digits ≠ []) :
    readWord ('-' :: digits) = (appendWithin (maxWord + 1) .tooSmall 0 digits).map
        fun value => -Int.ofNat value := by
  cases digits with
  | nil => contradiction
  | cons char rest => rfl

/-- A text is read as a number of 64 bits if and only if it denotes it. -/
theorem readWord_eq_ok_iff {text : List Char} {number : Int} :
    readWord text = .ok number ↔ Denotes text number := by
  constructor
  · intro reads
    unfold readWord at reads
    split at reads
    next => contradiction
    next => contradiction
    next => contradiction
    next _ digits notNil =>
      obtain ⟨allDigits, small, rfl⟩ := map_appendWithin_eq_ok_iff.1 reads
      exact .positive notNil allDigits small
    next _ digits notNil =>
      obtain ⟨allDigits, small, rfl⟩ := map_appendWithin_eq_ok_iff.1 reads
      exact .negative notNil allDigits small
    next notNil _ _ _ _ =>
      obtain ⟨allDigits, small, rfl⟩ := map_appendWithin_eq_ok_iff.1 reads
      exact .unsigned notNil allDigits small
  · intro denotes
    cases denotes with
    | unsigned notNil allDigits small =>
        obtain ⟨char, rest, rfl⟩ := List.exists_cons_of_ne_nil notNil
        rw [readWord_of_digit (allDigits char List.mem_cons_self)]
        exact map_appendWithin_eq_ok_iff.2 ⟨allDigits, small, rfl⟩
    | positive notNil allDigits small =>
        rw [readWord_positive notNil]
        exact map_appendWithin_eq_ok_iff.2 ⟨allDigits, small, rfl⟩
    | negative notNil allDigits small =>
        rw [readWord_negative notNil]
        exact map_appendWithin_eq_ok_iff.2 ⟨allDigits, small, rfl⟩

/-! ### Numerals -/

theorem appendWithin_eq {limit before : Nat} {beyond : Fault} {digits : List Char}
    (allDigits : ∀ char ∈ digits, char.isDigit) (within : before ≤ limit) :
    appendWithin limit beyond before digits =
      if valueBehind before digits ≤ limit then .ok (valueBehind before digits)
      else .error beyond := by
  induction digits generalizing before with
  | nil =>
      rw [appendWithin, if_pos (show valueBehind before [] ≤ limit from within)]; rfl
  | cons char rest ih =>
      rw [List.forall_mem_cons] at allDigits
      have larger := le_valueBehind (before * 10 + (char.toNat - '0'.toNat)) rest
      rw [appendWithin, digit?, if_pos allDigits.1, valueBehind, List.foldl_cons,
          ← valueBehind]
      simp only
      split
      next inside => exact ih allDigits.2 inside
      next outside => rw [if_neg (by omega)]

/-- A numeral is read as the number that it stands for, unless this is too large. -/
theorem readWord_numeral {digits : List Char} (some : digits ≠ [])
    (allDigits : ∀ char ∈ digits, char.isDigit) :
    readWord digits =
      if value digits ≤ maxWord then .ok ↑(value digits) else .error .tooLarge := by
  obtain ⟨char, rest, rfl⟩ := List.exists_cons_of_ne_nil some
  rw [readWord_of_digit (allDigits char List.mem_cons_self),
    appendWithin_eq allDigits (Nat.zero_le _), ← value]
  split <;> rfl

/-! ### How numbers are written -/

/-- Digits without leading zeros. The last digit stays, whatever it is. -/
def trimZeros : List Char → List Char
  | [] => []
  | [last] => [last]
  | digit :: next :: rest =>
      if digit = '0' then trimZeros (next :: rest) else digit :: next :: rest

/-- A digit is the one that its value is written with. -/
theorem toDigits_digit {char : Char} (isDigit : char.isDigit) :
    char.toNat - '0'.toNat < 10 ∧ Nat.digitChar (char.toNat - '0'.toNat) = char := by
  have low : '0'.toNat ≤ char.toNat :=
    (Bool.and_eq_true_iff.1 isDigit).1 |> of_decide_eq_true
  have high : char.toNat ≤ '9'.toNat :=
    (Bool.and_eq_true_iff.1 isDigit).2 |> of_decide_eq_true
  have written :
      ∀ number < 10, Nat.digitChar number = Char.ofNat (number + '0'.toNat) := by
    decide
  have small : char.toNat - '0'.toNat < 10 := by
    have : '9'.toNat = '0'.toNat + 9 := rfl
    omega
  rw [written _ small, Nat.sub_add_cancel low, Char.ofNat_toNat]
  exact ⟨small, rfl⟩

/-- Digits behind the digits of a number other than zero are written behind them. -/
theorem toDigits_valueBehind {before : Nat} (positive : 0 < before) {digits : List Char}
    (allDigits : ∀ char ∈ digits, char.isDigit) :
    Nat.toDigits 10 (valueBehind before digits) = Nat.toDigits 10 before ++ digits := by
  induction digits generalizing before with
  | nil => exact (List.append_nil _).symm
  | cons char rest ih =>
      rw [List.forall_mem_cons] at allDigits
      have digit := toDigits_digit allDigits.1
      rw [valueBehind, List.foldl_cons, ← valueBehind, ih (by omega) allDigits.2,
        Nat.toDigits_of_base_le (by decide) (by omega), Nat.mul_comm before,
        Nat.mul_add_div (by decide), Nat.mul_add_mod, Nat.mod_eq_of_lt digit.1, digit.2,
        Nat.div_eq_of_lt digit.1, Nat.add_zero]
      simp

theorem toList_toString (number : Nat) :
    (toString (number : Int)).toList = Nat.toDigits 10 number := by
  change number.repr.toList = _
  rw [Nat.repr_eq_ofList_toDigits, String.toList_ofList]

/-- The number that a numeral stands for is written as the numeral without
its leading zeros. -/
theorem toDigits_value {digits : List Char} (some : digits ≠ [])
    (allDigits : ∀ char ∈ digits, char.isDigit) :
    Nat.toDigits 10 (value digits) = trimZeros digits := by
  induction digits with
  | nil => contradiction
  | cons char rest ih =>
      rw [List.forall_mem_cons] at allDigits
      have digit := toDigits_digit allDigits.1
      have first :
          value (char :: rest) = valueBehind (char.toNat - '0'.toNat) rest := by
        rw [value, valueBehind, List.foldl_cons, Nat.zero_mul, Nat.zero_add]
        rfl
      cases rest with
      | nil =>
          rw [first]
          exact (Nat.toDigits_of_lt_base digit.1).trans (congrArg ([·]) digit.2)
      | cons next rest =>
          by_cases isZero : char = '0'
          · rw [first, trimZeros, if_pos isZero,
              ← ih (List.cons_ne_nil _ _) allDigits.2, isZero]
            rfl
          · have positive : 0 < char.toNat - '0'.toNat := by
              rw [Nat.pos_iff_ne_zero]
              intro zero
              rw [zero] at digit
              exact isZero digit.2.symm
            rw [first, toDigits_valueBehind positive allDigits.2,
              Nat.toDigits_of_lt_base digit.1, digit.2, trimZeros, if_neg isZero]
            rfl

end StackCompiler.Text.Decimal
