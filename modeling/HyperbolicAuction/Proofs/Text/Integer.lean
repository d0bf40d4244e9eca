import HyperbolicAuction.Proofs.Text.Grammar
import Mathlib.Data.List.Forall2

/-!
# Numbers in their digits

The digits of a number, with any zeros before them and letters of either case, are a row of digits
that has the number as its value. `Spells` says which rows of characters they are.

Main statement: `Spells.exists_isRow`.
-/

namespace HyperbolicAuction.Text

/-- The digits of a number in a base, after any zeros. Letters may be capitals. -/
def Spells (base number : Nat) (chars : List Char) : Prop :=
  ∃ zeros, chars.map Char.toLower = List.replicate zeros '0' ++ Nat.toDigits base number

variable {base number digit : Nat} {chars : List Char} {digits : List Nat} {c : Char}

/-! ## One digit -/

theorem eq_or_capital_of_toLower {c lower : Char} (own : c.toLower = lower) :
    c = lower ∨ ∃ place < 26, c = Char.ofNat (65 + place) := by
  unfold Char.toLower at own
  split at own
  · next capital =>
    have least : 65 ≤ c.toNat := capital.1
    have most : c.toNat ≤ 90 := capital.2
    refine .inr ⟨c.toNat - 65, by omega, ?_⟩
    rw [Nat.add_sub_cancel' least, Char.ofNat_toNat]
  · exact .inl own

/-- Each digit of up to sixteen has the character of its own, or the capital of that. -/
theorem isDigit_of_toLower (below : digit < 16) (own : c.toLower = Nat.digitChar digit) :
    IsDigit c digit := by
  have lowers : ∀ digit < 16, (decimalDigit? (Nat.digitChar digit)).or
      (letterDigit? (Nat.digitChar digit)) = some digit := by
    decide +kernel
  have capitals : ∀ place < 26, ∀ digit < 16,
      (Char.ofNat (65 + place)).toLower = Nat.digitChar digit →
        (decimalDigit? (Char.ofNat (65 + place))).or (letterDigit? (Char.ofNat (65 + place))) =
          some digit := by
    decide +kernel
  rcases eq_or_capital_of_toLower own with rfl | ⟨place, letter, rfl⟩
  · exact isDigit_iff.1 (lowers digit below)
  · exact isDigit_iff.1 (capitals place letter digit below own)

/-! ## Rows of digits -/

/-- The digits of a number have its value. -/
theorem exists_digits (wide : 1 < base) (number : Nat) :
    ∃ digits : List Nat, Nat.toDigits base number = digits.map Nat.digitChar ∧
      (∀ digit ∈ digits, digit < base) ∧ digitsNumber base digits = number := by
  induction number using Nat.strongRecOn with
  | ind number ih =>
    rcases Nat.lt_or_ge number base with small | large
    · refine ⟨[number], Nat.toDigits_of_lt_base small, ?_, ?_⟩
      · intro digit mem
        rw [List.mem_singleton.1 mem]
        exact small
      · rw [digitsNumber, List.foldl_cons, List.foldl_nil, Nat.mul_zero, Nat.zero_add]
    · have last : number % base < base := Nat.mod_lt _ (by omega)
      have begun : 0 < number / base := Nat.div_pos large (by omega)
      obtain ⟨digits, written, below, value⟩ :=
        ih (number / base) (Nat.div_lt_self (by omega) wide)
      refine ⟨digits ++ [number % base], ?_, ?_, ?_⟩
      · have split := Nat.toDigits_append_toDigits wide begun last
        rw [Nat.div_add_mod, Nat.toDigits_of_lt_base last, written] at split
        rw [← split, List.map_append, List.map_singleton]
      · intro digit mem
        rcases List.mem_append.1 mem with earlier | isLast
        · exact below digit earlier
        · rw [List.mem_singleton.1 isLast]
          exact last
      · unfold digitsNumber at value ⊢
        rw [List.foldl_append, value, List.foldl_cons, List.foldl_nil, Nat.div_add_mod]

theorem digitsNumber_replicate_append (zeros : Nat) (digits : List Nat) :
    digitsNumber base (List.replicate zeros 0 ++ digits) = digitsNumber base digits := by
  induction zeros with
  | zero => rfl
  | succ zeros ih =>
    rw [List.replicate_succ, List.cons_append, ← ih, digitsNumber, List.foldl_cons, Nat.mul_zero]
    rfl

/-- Characters that are digits one by one are a row of them. -/
theorem isRow_of_forall₂
    (each : List.Forall₂ (fun digit c => IsDigit c digit ∧ digit < base) digits chars)
    (nonempty : chars ≠ []) : IsRow base chars digits := by
  induction each with
  | nil => exact absurd rfl nonempty
  | cons first others ih =>
    cases others with
    | nil => exact .single first.1 first.2
    | cons => exact .next first.1 first.2 (ih (List.cons_ne_nil _ _))

namespace Spells

variable (spells : Spells base number chars)

include spells

theorem ne_nil : chars ≠ [] := by
  obtain ⟨zeros, spelled⟩ := spells
  rintro rfl
  have length := congrArg List.length spelled
  rw [List.map_nil, List.length_nil, List.length_append] at length
  have some_ := @Nat.length_toDigits_pos base number
  omega

/-- The characters that spell a number are a row of digits that has its value. -/
theorem exists_isRow (wide : 1 < base) (known : base ≤ 16) :
    ∃ digits, IsRow base chars digits ∧ digits.length = chars.length ∧
      rowValue base digits = number := by
  have nonempty := spells.ne_nil
  obtain ⟨zeros, spelled⟩ := spells
  obtain ⟨digits, written, below, value⟩ := exists_digits wide number
  have filled : (List.replicate zeros 0 ++ digits).map Nat.digitChar = chars.map Char.toLower := by
    rw [spelled, written, List.map_append, List.map_replicate]
    rfl
  have allBelow : ∀ digit ∈ List.replicate zeros 0 ++ digits, digit < base := by
    intro digit mem
    rcases List.mem_append.1 mem with zero | own
    · rw [(List.mem_replicate.1 zero).2]
      omega
    · exact below digit own
  rw [← List.forall₂_eq_eq_eq, List.forall₂_map_left_iff, List.forall₂_map_right_iff] at filled
  refine ⟨List.replicate zeros 0 ++ digits, isRow_of_forall₂ ?_ nonempty, filled.length_eq, ?_⟩
  · refine ((List.forall₂_and_left _ _).2 ⟨allBelow, filled⟩).imp ?_
    rintro digit c ⟨digitBelow, own⟩
    exact ⟨isDigit_of_toLower (Nat.lt_of_lt_of_le digitBelow known) own.symm, digitBelow⟩
  · rw [← digitsNumber_eq_rowValue, digitsNumber_replicate_append, value]

end Spells

end HyperbolicAuction.Text
