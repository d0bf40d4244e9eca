import HyperbolicAuction.Proofs.Amount.Descale
import HyperbolicAuction.Proofs.Amount.Encoding
import HyperbolicAuction.Proofs.Binary64.Monotone
import HyperbolicAuction.Proofs.Binary64.Nearest
import HyperbolicAuction.Proofs.Binary64.SignedZero
import HyperbolicAuction.Proofs.Decimal.Numeral

/-!
# Amounts in human units

A text of digits is scaled to the numeral of its number over a power of ten, and the decimal number
read from that keeps every digit. The value of an amount in human units is nearest to the exact
quotient, so a greater amount is never worth less, and nothing but a zero is worth nothing.

Main statements: `scale_exact`, `toHuman_nearest`, and `IsWorth.unique`.
-/

namespace HyperbolicAuction.Amount

open Binary64 Scalar

attribute [local irreducible] Text.digitLimit overflowLimit unitsPerOne leastInfinite

variable {number least most places : Nat} {text : String} {value lesser greater : Raw}

/-! ## Exact amounts -/

theorem scale_text (text : String) (decimals : Int) :
    scale (.text text) decimals = .ok (Decimal.scaleText text decimals) := by
  unfold scale
  split
  · next blank =>
    have empty : text.isEmpty = true := blank
    rw [String.isEmpty_iff.1 empty]
  · rfl

/-- A text of digits that stands for a number, whatever zeros it begins with, is scaled to a numeral
of that number over a power of ten, with so many digits behind the point; without the point and
leading zeros that is the number in writing. Every value that holds the number is descaled to its
coefficient and that power of ten. -/
theorem scale_exact (digits : Decimal.AllDigits text.toList)
    (denotes : Nat.ofDigitChars 10 text.toList 0 = number) (places : Nat) :
    (∃ numeral : Decimal.Numeral, scale (.text text) places = .ok (String.ofList numeral.chars) ∧
      numeral.fraction.length = places ∧ numeral.value = number / 10 ^ places ∧
      (numeral.chars.filter (· != '.')).dropWhile (· == '0') =
        if number = 0 then [] else (toString number).toList) ∧
    ∀ value, decode value = .ok number → number < 10 ^ Text.digitLimit →
      descale value places = .ok (.finite false number (-places)) := by
  constructor
  · obtain ⟨numeral, scaled, length, exactly, erased⟩ :=
      Decimal.exists_numeral_scaleText digits denotes places
    refine ⟨numeral, ?_, length, exactly, ?_⟩
    · rw [scale_text, scaled]
    · rw [erased, Nat.toString_eq_repr, Nat.toList_repr]
  · intro value decoded writable
    rw [descale_eq decoded writable, Int.toNat_natCast]

theorem scale_exact_padded :
    Decimal.AllDigits "0070".toList ∧ Nat.ofDigitChars 10 "0070".toList 0 = 70 ∧
      (∃ numeral : Decimal.Numeral, scale (.text "0070") 4 = .ok (String.ofList numeral.chars) ∧
        numeral.fraction.length = 4 ∧ numeral.value = 70 / 10 ^ 4) ∧
      decode (.mapping [("value", .text " 0x46\n")]) = .ok 70 ∧ 70 < 10 ^ Text.digitLimit ∧
      descale (.mapping [("value", .text " 0x46\n")]) 4 = .ok (.finite false 70 (-4)) := by
  have digits : Decimal.AllDigits "0070".toList := List.all_eq_true.1 rfl
  have denotes : Nat.ofDigitChars 10 "0070".toList 0 = 70 := by decide +kernel
  have writable : 70 < 10 ^ Text.digitLimit := by decide +kernel
  have scalar : EncodesScalar Text.digitLimit (.text " 0x46\n") 70 :=
    .hexText ⟨[' '], ['\n'], by decide +kernel, List.all_eq_true.1 rfl⟩ (.inl rfl)
      (show Text.Spells 16 70 ['4', '6'] from ⟨0, by decide +kernel⟩)
  have decoded : decode (.mapping [("value", .text " 0x46\n")]) = .ok 70 := by
    refine decode_of_encodes
      (.wrapper ⟨.inl rfl, ["raw"], "value", ["dec"], rfl, rfl, rfl, ?_⟩ (.scalar scalar))
    intro other mem value found
    rw [List.mem_singleton.1 mem] at found
    cases found
  obtain ⟨⟨numeral, scaled, length, exactly, _⟩, descaled⟩ := scale_exact digits denotes 4
  exact ⟨digits, denotes, ⟨numeral, scaled, length, exactly⟩, decoded, writable,
    descaled _ decoded writable⟩

/-! ## Rounded amounts -/

/-- A value that an amount has in human units: the one nearest to the exact quotient, neither below
zero nor the negative zero, and a zero for nothing alone. -/
structure IsWorth (number places : Nat) (human : Binary64) : Prop where
  nearest : IsNearest (number / 10 ^ places) human
  nonneg : 0 ≤ human
  unsigned : human ≠ zero true
  isZero_iff : isZero human = true ↔ number = 0

/-- An amount has one value in human units. -/
theorem IsWorth.unique {one other : Binary64} (isOne : IsWorth number places one)
    (isOther : IsWorth number places other) : one = other := by
  have quotient : (0 : ℚ) ≤ number / 10 ^ places :=
    div_nonneg (Nat.cast_nonneg number) (pow_nonneg (by decide) places)
  have positions := isOne.nearest.position_eq quotient isOther.nearest
  have oneNumber := (ne_nan_of_le isOne.nonneg).2
  have otherNumber := (ne_nan_of_le isOther.nonneg).2
  rcases (sameNumber_iff oneNumber otherNumber).2 positions with same | ⟨oneZero, otherZero⟩
  · exact same
  · obtain ⟨oneSign, rfl⟩ := exists_zero oneZero
    obtain ⟨otherSign, rfl⟩ := exists_zero otherZero
    cases oneSign with
    | true => exact absurd rfl isOne.unsigned
    | false =>
      cases otherSign with
      | true => exact absurd rfl isOther.unsigned
      | false => rfl

/-- Not even the least amount is rounded to nothing. -/
theorem isZero_ofQuotient_iff (few : places ≤ 36) :
    isZero (ofQuotient false number (10 ^ places)) = true ↔ number = 0 := by
  have power : 10 ^ places ≤ 10 ^ 36 := Nat.pow_le_pow_right (by decide) few
  have units : 10 ^ 36 < 2 * unitsPerOne := by decide +kernel
  unfold ofQuotient
  rw [isZero_ofUnits_iff (Nat.pow_pos (by decide))]
  constructor
  · intro half
    by_contra some_
    have least := Nat.le_mul_of_pos_left unitsPerOne (Nat.pos_of_ne_zero some_)
    omega
  · rintro rfl
    rw [Nat.zero_mul]
    exact Nat.zero_le _

theorem isWorth_ofQuotient (number : Nat) (few : places ≤ 36) :
    IsWorth number places (ofQuotient false number (10 ^ places)) where
  nearest := by
    have nearest := @isNearest_ofQuotient number (10 ^ places) (Nat.pow_pos (by decide))
    rwa [Nat.cast_pow, Nat.cast_ofNat] at nearest
  nonneg := by
    refine le_iff.2 ⟨zero_ne_nan, ofUnits_ne_nan _ _ _, ?_⟩
    rw [ofQuotient, position_ofUnits, signedUnits_false, position_zero]
    exact Int.natCast_nonneg _
  unsigned := by
    unfold ofQuotient ofUnits zero
    dsimp only
    split
    · intro same
      cases same
    · exact Binary64.noConfusion
  isZero_iff := isZero_ofQuotient_iff few

theorem ofQuotient_mono (ordered : least ≤ most) (places : Nat) :
    ofQuotient false least (10 ^ places) ≤ ofQuotient false most (10 ^ places) := by
  have positive : 0 < 10 ^ places := Nat.pow_pos (by decide)
  refine le_iff.2 ⟨ofUnits_ne_nan _ _ _, ofUnits_ne_nan _ _ _, ?_⟩
  refine position_ofUnits_mono positive positive ?_
  rw [signedUnits_false, signedUnits_false]
  exact_mod_cast Nat.mul_le_mul_right _ (Nat.mul_le_mul_right _ ordered)

/-- Two amounts are worth the values nearest to their exact quotients, the greater one no less. -/
theorem toHuman_nearest (lesserDecoded : decode lesser = .ok least)
    (greaterDecoded : decode greater = .ok most) (ordered : least ≤ most)
    (writable : most < 10 ^ Text.digitLimit) (few : places ≤ 36) :
    ∃ low high, toHuman lesser places = .ok low ∧ toHuman greater places = .ok high ∧
      IsWorth least places low ∧ IsWorth most places high ∧ low ≤ high := by
  have known : (places : Int).toNat = places := Int.toNat_natCast places
  have inReach : (places : Int).toNat ≤ 400 := by omega
  refine ⟨_, _, toHuman_eq lesserDecoded (Nat.lt_of_le_of_lt ordered writable) inReach,
    toHuman_eq greaterDecoded writable inReach, ?_⟩
  rw [known]
  exact ⟨isWorth_ofQuotient least few, isWorth_ofQuotient most few, ofQuotient_mono ordered places⟩

/-- In eighteen decimals the lesser of the two amounts is midway between two values. -/
theorem toHuman_nearest_midway :
    let least : Nat := (2 ^ 53 + 1) * 5 ^ 18
    let most : Nat := (2 ^ 53 + 2) * 5 ^ 18
    decode (.int least) = .ok least ∧ decode (.int most) = .ok most ∧ least ≤ most ∧
      most < 10 ^ Text.digitLimit ∧
      ∃ low high, toHuman (.int least) 18 = .ok low ∧ toHuman (.int most) 18 = .ok high ∧
        IsWorth least 18 low ∧ IsWorth most 18 high ∧ low ≤ high := by
  intro least most
  have ordered : least ≤ most := by decide
  have writable : most < 10 ^ Text.digitLimit := by decide +kernel
  exact ⟨decode_int _, decode_int _, ordered, writable,
    toHuman_nearest (decode_int _) (decode_int _) ordered writable (by decide)⟩

end HyperbolicAuction.Amount
