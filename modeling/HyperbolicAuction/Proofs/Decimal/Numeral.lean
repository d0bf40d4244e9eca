import HyperbolicAuction.Proofs.Decimal.Reader
import Mathlib.Algebra.Order.Field.Rat
import Mathlib.Data.List.Induction
import Mathlib.Tactic.FieldSimp

/-!
# Numerals

A numeral is written in digits `0` to `9`, with no zero before the others unless it stands alone
before the point. What stands behind the point counts tenths, hundredths and so on. It is determined
by how it is written, and so it is with a minus sign before it.

A row of digits with a point placed among them is a numeral of the row's number over a power of ten,
and the row can be had back from it. It does not matter how many zeros the row began with, since a
number has but one row of digits without any.

Main statements: `stripZeros_eq_toDigits`, `exists_isPlaced`, `exists_numeral_scaleText`,
`exists_numeral_toDigits`, `SignedNumeral.text_inj`.
-/

namespace HyperbolicAuction.Decimal

/-- A row that begins with no zero, unless the zero stands alone. -/
def IsReduced (digits : List Char) : Prop :=
  digits = ['0'] ∨ ∃ first rest, digits = first :: rest ∧ first ≠ '0'

/-- A number in positional notation. -/
structure Numeral where
  /-- The digits before the point. -/
  whole : List Char
  /-- The digits behind the point; without any there is no point. -/
  fraction : List Char
  wholeDigits : AllDigits whole
  fractionDigits : AllDigits fraction
  reduced : IsReduced whole

namespace Numeral

/-- A numeral in writing. -/
def chars (numeral : Numeral) : List Char :=
  numeral.whole ++ if numeral.fraction.isEmpty then [] else '.' :: numeral.fraction

theorem chars_of_pos {numeral : Numeral} (pointed : 0 < numeral.fraction.length) :
    numeral.chars = numeral.whole ++ '.' :: numeral.fraction := by
  have notEmpty : ¬ numeral.fraction.isEmpty = true := by
    rw [List.isEmpty_iff_length_eq_zero]
    exact Nat.ne_of_gt pointed
  rw [chars, if_neg notEmpty]

/-- The number that a numeral stands for. -/
def value (numeral : Numeral) : ℚ :=
  Nat.ofDigitChars 10 numeral.whole 0 +
    Nat.ofDigitChars 10 numeral.fraction 0 / 10 ^ numeral.fraction.length

/-- The point divides the number of all the digits. -/
theorem value_eq (numeral : Numeral) :
    numeral.value = Nat.ofDigitChars 10 (numeral.whole ++ numeral.fraction) 0 /
      10 ^ numeral.fraction.length := by
  have power : (10 : ℚ) ^ numeral.fraction.length ≠ 0 := pow_ne_zero _ (by decide)
  rw [value, Nat.ofDigitChars_append,
    @Nat.ofDigitChars_eq_ofDigitChars_zero _ (Nat.ofDigitChars 10 numeral.whole 0)]
  push_cast
  field_simp

theorem filter_chars (numeral : Numeral) :
    numeral.chars.filter (· != '.') = numeral.whole ++ numeral.fraction := by
  have noPoint {digits : List Char} (all : AllDigits digits) :
      digits.filter (· != '.') = digits := by
    refine List.filter_eq_self.2 fun c mem => bne_iff_ne.2 ?_
    rintro rfl
    cases all '.' mem
  rw [chars, List.filter_append, noPoint numeral.wholeDigits]
  split
  · next none_ => rw [List.isEmpty_iff.1 none_, List.filter_nil]
  · rw [List.filter_cons_of_neg (by decide), noPoint numeral.fractionDigits]

theorem takeWhile_chars (numeral : Numeral) :
    numeral.chars.takeWhile Char.isDigit = numeral.whole := by
  unfold chars
  split
  · rw [List.append_nil, takeWhile_all numeral.wholeDigits]
  · exact takeWhile_digits numeral.wholeDigits numeral.fraction

theorem tail_dropWhile_chars (numeral : Numeral) :
    (numeral.chars.dropWhile Char.isDigit).tail = numeral.fraction := by
  unfold chars
  split
  · next none_ =>
    rw [List.append_nil, dropWhile_all numeral.wholeDigits, List.isEmpty_iff.1 none_, List.tail_nil]
  · rw [dropWhile_digits numeral.wholeDigits, List.tail_cons]

/-- A numeral is determined by how it is written. -/
theorem chars_inj {numeral other : Numeral} : numeral.chars = other.chars ↔ numeral = other := by
  refine ⟨fun same => ?_, congrArg chars⟩
  have whole : numeral.whole = other.whole := by
    rw [← numeral.takeWhile_chars, same, other.takeWhile_chars]
  have fraction : numeral.fraction = other.fraction := by
    rw [← numeral.tail_dropWhile_chars, same, other.tail_dropWhile_chars]
  cases numeral
  cases other
  cases whole
  cases fraction
  rfl

/-- A numeral begins with a digit. -/
theorem exists_first (numeral : Numeral) :
    ∃ first rest, numeral.chars = first :: rest ∧ first.isDigit = true := by
  obtain ⟨first, rest, begun⟩ : ∃ first rest, numeral.whole = first :: rest := by
    rcases numeral.reduced with zero | ⟨first, rest, begun, _⟩
    · exact ⟨_, _, zero⟩
    · exact ⟨first, rest, begun⟩
  refine ⟨first, _, by rw [chars, begun, List.cons_append], numeral.wholeDigits first ?_⟩
  rw [begun]
  exact List.mem_cons_self

end Numeral

/-! ## Signs -/

/-- A numeral with a sign. -/
structure SignedNumeral where
  negative : Bool
  numeral : Numeral

namespace SignedNumeral

/-- A signed numeral in writing: only a minus sign is written. -/
def text (amount : SignedNumeral) : String :=
  signText amount.negative ++ String.ofList amount.numeral.chars

/-- The number that a signed numeral stands for. -/
def value (amount : SignedNumeral) : ℚ :=
  if amount.negative then -amount.numeral.value else amount.numeral.value

theorem toList_text (amount : SignedNumeral) :
    amount.text.toList = (if amount.negative then ['-'] else []) ++ amount.numeral.chars := by
  unfold text signText
  rw [String.toList_append, String.toList_ofList]
  split <;> rfl

/-- A signed numeral is determined by how it is written. -/
theorem text_inj {amount other : SignedNumeral} : amount.text = other.text ↔ amount = other := by
  refine ⟨fun same => ?_, congrArg text⟩
  have chars := congrArg String.toList same
  rw [toList_text, toList_text] at chars
  obtain ⟨negative, numeral⟩ := amount
  obtain ⟨otherNegative, otherNumeral⟩ := other
  obtain ⟨first, rest, begun, digit⟩ := numeral.exists_first
  obtain ⟨otherFirst, otherRest, otherBegun, otherDigit⟩ := otherNumeral.exists_first
  cases negative with
  | false =>
    cases otherNegative with
    | false => exact congrArg (SignedNumeral.mk false) (Numeral.chars_inj.1 chars)
    | true =>
      rw [begun] at chars
      cases (List.cons.inj chars).1
      cases digit
  | true =>
    cases otherNegative with
    | false =>
      rw [otherBegun] at chars
      cases (List.cons.inj chars).1
      cases otherDigit
    | true => exact congrArg (SignedNumeral.mk true) (Numeral.chars_inj.1 (List.cons.inj chars).2)

end SignedNumeral

variable {digits rest : List Char} {first : Char} {places number : Nat}

/-! ## The digits of a number -/

theorem digitChar_of_isDigit {c : Char} (digit : c.isDigit = true) :
    c.toNat - '0'.toNat < 10 ∧ Nat.digitChar (c.toNat - '0'.toNat) = c := by
  obtain ⟨least, most⟩ := Char.isDigit_iff_toNat.1 digit
  have zero : '0'.toNat = 48 := rfl
  have nine : '9'.toNat = 57 := rfl
  have below : c.toNat - '0'.toNat < 10 := by omega
  refine ⟨below, Char.toNat_inj.1 ?_⟩
  rw [Nat.toNat_digitChar_of_lt_ten below]
  omega

/-- Digits that do not begin with a zero are those of their number. -/
theorem toDigits_ofDigitChars (all : AllDigits (first :: rest)) (nonzero : first ≠ '0') :
    0 < Nat.ofDigitChars 10 (first :: rest) 0 ∧
      Nat.toDigits 10 (Nat.ofDigitChars 10 (first :: rest) 0) = first :: rest := by
  induction rest using List.reverseRecOn with
  | nil =>
    obtain ⟨below, own⟩ := digitChar_of_isDigit (all first List.mem_cons_self)
    rw [Nat.ofDigitChars_cons, Nat.mul_zero, Nat.zero_add, Nat.ofDigitChars_nil,
      Nat.toDigits_of_lt_base below, own]
    refine ⟨Nat.pos_of_ne_zero fun zero => nonzero ?_, rfl⟩
    rw [← own, zero]
    rfl
  | append_singleton rest last ih =>
    rw [← List.cons_append] at all ⊢
    obtain ⟨positive, written⟩ := ih (all.of_sublist (List.sublist_append_left _ _))
    obtain ⟨below, own⟩ :=
      digitChar_of_isDigit (all last (List.mem_append_right _ List.mem_cons_self))
    rw [Nat.ofDigitChars_append, Nat.ofDigitChars_cons, Nat.ofDigitChars_nil]
    refine ⟨by omega, ?_⟩
    rw [← Nat.toDigits_append_toDigits (by decide) positive below, written,
      Nat.toDigits_of_lt_base below, own]

theorem dropWhile_eq_nil_or (digits : List Char) :
    digits.dropWhile (· == '0') = [] ∨
      ∃ first rest, digits.dropWhile (· == '0') = first :: rest ∧ first ≠ '0' := by
  induction digits with
  | nil => exact .inl rfl
  | cons first rest ih =>
    rw [List.dropWhile_cons]
    split
    · exact ih
    · next nonzero => exact .inr ⟨first, rest, rfl, fun zero => nonzero (beq_iff_eq.2 zero)⟩

theorem isReduced_stripZeros (digits : List Char) : IsReduced (stripZeros digits) := by
  unfold stripZeros
  rcases dropWhile_eq_nil_or digits with none_ | ⟨first, rest, some_, nonzero⟩
  · exact .inl (by rw [none_])
  · exact .inr ⟨first, rest, by rw [some_], nonzero⟩

/-- A row of digits without its leading zeros has the digits of its number, and zero has none. -/
theorem dropWhile_eq_toDigits (all : AllDigits digits)
    (denotes : Nat.ofDigitChars 10 digits 0 = number) :
    digits.dropWhile (· == '0') = if number = 0 then [] else Nat.toDigits 10 number := by
  have same := digitsValue_dropWhile digits
  rw [digitsValue_eq, digitsValue_eq, denotes] at same
  rcases dropWhile_eq_nil_or digits with stripped | ⟨first, rest, stripped, nonzero⟩
  · rw [stripped] at same ⊢
    rw [← same, Nat.ofDigitChars_nil, if_pos rfl]
  · have kept : AllDigits (first :: rest) := by
      rw [← stripped]
      exact all.of_sublist (List.dropWhile_sublist _)
    obtain ⟨positive, written⟩ := toDigits_ofDigitChars kept nonzero
    rw [stripped] at same ⊢
    rw [same] at positive written
    rw [if_neg (Nat.ne_of_gt positive), written]

/-- A row of digits stripped of leading zeros is its number in writing. -/
theorem stripZeros_eq_toDigits (all : AllDigits digits)
    (denotes : Nat.ofDigitChars 10 digits 0 = number) :
    stripZeros digits = Nat.toDigits 10 number := by
  unfold stripZeros
  rw [dropWhile_eq_toDigits all denotes]
  by_cases zero : number = 0
  · rw [if_pos zero, zero, Nat.toDigits_zero]
  · rw [if_neg zero]
    split
    · next none_ => exact absurd none_ Nat.toDigits_ne_nil
    · rfl

theorem isReduced_toDigits (number : Nat) : IsReduced (Nat.toDigits 10 number) := by
  rw [← stripZeros_eq_toDigits (allDigits_toDigits number) Nat.ofDigitChars_ten_toDigits]
  exact isReduced_stripZeros _

/-! ## Placing the point -/

/-- A numeral is a row of digits with a point placed some places from its end. Its own digits are
those of the row behind as many zeros as it takes for one to stand before the point. -/
structure IsPlaced (digits : List Char) (places : Nat) (numeral : Numeral) : Prop where
  written : numeral.chars = placePoint digits places
  length : numeral.fraction.length = places
  joined : numeral.whole ++ numeral.fraction =
    List.replicate (places + 1 - digits.length) '0' ++ digits

/-- The zeros in front count for nothing. -/
theorem IsPlaced.ofDigitChars_eq {numeral : Numeral} (placed : IsPlaced digits places numeral) :
    Nat.ofDigitChars 10 (numeral.whole ++ numeral.fraction) 0 = Nat.ofDigitChars 10 digits 0 := by
  rw [placed.joined, Nat.ofDigitChars_append, Nat.ofDigitChars_replicate_zero, Nat.mul_zero]

/-- The point divides the number of the row. -/
theorem IsPlaced.value_eq {numeral : Numeral} (placed : IsPlaced digits places numeral) :
    numeral.value = Nat.ofDigitChars 10 digits 0 / 10 ^ places := by
  rw [numeral.value_eq, placed.ofDigitChars_eq, placed.length]

/-- In a long row the point stands among the digits. -/
theorem exists_isPlaced_of_lt (all : AllDigits digits) (reduced : IsReduced digits)
    (positive : 0 < places) (long : places < digits.length) :
    ∃ numeral, IsPlaced digits places numeral := by
  have kept : (digits.drop (digits.length - places)).length = places := by
    rw [List.length_drop]
    omega
  have begun : IsReduced (digits.take (digits.length - places)) := by
    rcases reduced with rfl | ⟨first, rest, rfl, nonzero⟩
    · exact absurd long (Nat.not_lt.2 positive)
    · refine .inr ⟨first, rest.take (rest.length - places), ?_, nonzero⟩
      rw [List.length_cons, Nat.succ_sub (Nat.lt_succ_iff.1 long), List.take_succ_cons]
  refine ⟨⟨_, _, all.of_sublist (List.take_sublist _ _), all.of_sublist (List.drop_sublist _ _),
    begun⟩, ?_, kept, ?_⟩
  · rw [Numeral.chars_of_pos (by rwa [kept]), placePoint, if_neg (Nat.ne_of_gt positive),
      if_neg (Nat.not_le.2 long)]
  · rw [Nat.sub_eq_zero_of_le long]
    exact List.take_append_drop _ digits

/-- A short row is filled up with zeros, and one more stands before the point. -/
theorem exists_isPlaced_of_le (all : AllDigits digits) (some_ : 0 < digits.length)
    (short : digits.length ≤ places) : ∃ numeral, IsPlaced digits places numeral := by
  have positive : 0 < places := Nat.lt_of_lt_of_le some_ short
  have filled : (List.replicate (places - digits.length) '0' ++ digits).length = places := by
    rw [List.length_append, List.length_replicate, Nat.sub_add_cancel short]
  refine ⟨⟨['0'], _, .zero, all.replicate_append (places - digits.length), .inl rfl⟩, ?_, filled,
    ?_⟩
  · rw [Numeral.chars_of_pos (by rwa [filled]), placePoint, if_neg (Nat.ne_of_gt positive),
      if_pos short]
    rfl
  · rw [Nat.succ_sub short, List.replicate_succ]
    rfl

/-- A row with a point placed is a numeral. -/
theorem exists_isPlaced (all : AllDigits digits) (reduced : IsReduced digits) (places : Nat) :
    ∃ numeral, IsPlaced digits places numeral := by
  have some_ : 0 < digits.length := by
    rcases reduced with rfl | ⟨first, rest, rfl, _⟩ <;> exact Nat.succ_pos _
  rcases Nat.eq_zero_or_pos places with rfl | positive
  · refine ⟨⟨digits, [], all, List.forall_mem_nil _, reduced⟩, ?_, rfl, ?_⟩
    · exact List.append_nil digits
    · rw [Nat.zero_add, Nat.sub_eq_zero_of_le some_]
      exact List.append_nil digits
  · rcases Nat.lt_or_ge places digits.length with long | short
    · exact exists_isPlaced_of_lt all reduced positive long
    · exact exists_isPlaced_of_le all some_ short

/-- A text of digits is scaled to a numeral of its number over a power of ten. Without the point and
leading zeros it is the number in writing again. -/
theorem exists_numeral_scaleText {text : String} (all : AllDigits text.toList)
    (denotes : Nat.ofDigitChars 10 text.toList 0 = number) (places : Nat) :
    ∃ numeral : Numeral, scaleText text places = String.ofList numeral.chars ∧
      numeral.fraction.length = places ∧ numeral.value = number / 10 ^ places ∧
      (numeral.chars.filter (· != '.')).dropWhile (· == '0') =
        if number = 0 then [] else Nat.toDigits 10 number := by
  have stripped := stripZeros_eq_toDigits all denotes
  have own := allDigits_stripZeros all
  obtain ⟨numeral, placed⟩ := exists_isPlaced own (isReduced_stripZeros text.toList) places
  have value : Nat.ofDigitChars 10 (stripZeros text.toList) 0 = number := by
    rw [stripped, Nat.ofDigitChars_ten_toDigits]
  refine ⟨numeral, ?_, placed.length, ?_, ?_⟩
  · rw [scaleText, Int.toNat_natCast, placed.written]
  · rw [placed.value_eq, value]
  · rw [numeral.filter_chars]
    refine dropWhile_eq_toDigits ?_ (placed.ofDigitChars_eq.trans value)
    rw [placed.joined]
    exact own.replicate_append _

/-- A number in writing with a point placed is a numeral of the number over a power of ten. -/
theorem exists_numeral_toDigits (number places : Nat) :
    ∃ numeral : Numeral, numeral.chars = placePoint (Nat.toDigits 10 number) places ∧
      numeral.fraction.length = places ∧ numeral.value = number / 10 ^ places := by
  obtain ⟨numeral, placed⟩ :=
    exists_isPlaced (allDigits_toDigits number) (isReduced_toDigits number) places
  refine ⟨numeral, placed.written, placed.length, ?_⟩
  rw [placed.value_eq, Nat.ofDigitChars_ten_toDigits]

end HyperbolicAuction.Decimal
