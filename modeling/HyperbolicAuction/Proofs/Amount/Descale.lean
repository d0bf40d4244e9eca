import HyperbolicAuction.Amount.Decode
import HyperbolicAuction.Proofs.Binary64.Arithmetic
import HyperbolicAuction.Proofs.Decimal.Reader
import HyperbolicAuction.Proofs.Outcome

/-!
# Descaling an amount

An amount that is written, given a point and read back is the amount divided by a power of ten: as a
decimal number with all its digits, and as a binary64 value rounded once.

Main statements: `descale_eq`, `toHuman_eq`, `toSeconds_cases`.
-/

namespace HyperbolicAuction.Amount

attribute [local irreducible] Text.digitLimit Binary64.overflowLimit Binary64.unitsPerOne

variable {value : Raw} {number : Nat} {decimals : Int}

theorem writeInteger?_eq (writable : number < 10 ^ Text.digitLimit) :
    Text.writeInteger? (number : Int) = some number.repr := by
  unfold Text.writeInteger?
  rw [Int.natAbs_natCast, if_pos writable]
  rfl

/-- The text of an amount, scaled and read back, is the amount over a power of ten. -/
theorem ofNumeral?_scaleText (number : Nat) (decimals : Int) :
    Decimal.ofNumeral? (Decimal.scaleText number.repr decimals).toList =
      some (.finite false number (-(decimals.toNat : Int))) := by
  have all := Decimal.allDigits_stripZeros (Decimal.allDigits_toDigits number)
  unfold Decimal.scaleText
  rw [String.toList_ofList, Nat.toList_repr,
    Decimal.ofNumeral?_placePoint all (Decimal.stripZeros_ne_nil _),
    Decimal.digitsValue_stripZeros, Decimal.digitsValue_eq, Nat.ofDigitChars_ten_toDigits]

/-- Descaling keeps every digit. -/
theorem descale_eq (decoded : decode value = .ok number) (writable : number < 10 ^ Text.digitLimit)
    (decimals : Int) :
    descale value decimals = .ok (.finite false number (-(decimals.toNat : Int))) := by
  unfold descale
  rw [decoded, Outcome.ok_do, writeInteger?_eq writable]
  dsimp only
  rw [ofNumeral?_scaleText]
  rfl

/-- A decimal number of not too many places is rounded once. -/
theorem toBinary64_eq (number : Nat) {places : Nat} (few : places ≤ 400) :
    (Decimal.finite false number (-(places : Int))).toBinary64 =
      .ofQuotient false number (10 ^ places) := by
  have held : Decimal.heldExponent (Decimal.digits number).length (-(places : Int)) = -places := by
    unfold Decimal.heldExponent
    omega
  unfold Decimal.toBinary64
  dsimp only
  rw [held, Int.toNat_neg_natCast, Nat.pow_zero, Nat.mul_one, Int.neg_neg, Int.toNat_natCast]

/-- An amount in human units is the nearest value to the amount over a power of ten. -/
theorem toHuman_eq (decoded : decode value = .ok number) (writable : number < 10 ^ Text.digitLimit)
    (few : decimals.toNat ≤ 400) :
    toHuman value decimals = .ok (.ofQuotient false number (10 ^ decimals.toNat)) := by
  unfold toHuman
  rw [descale_eq decoded writable, Outcome.ok_do, toBinary64_eq number few]
  rfl

/-- Whatever is an amount in human units was an amount. -/
theorem decode_of_toHuman {human : Binary64} (returned : toHuman value decimals = .ok human) :
    ∃ number, decode value = .ok number := by
  unfold toHuman at returned
  obtain ⟨scaled, descaled, _⟩ := Outcome.bind_eq_ok_iff.1 returned
  unfold descale at descaled
  obtain ⟨number, decoded, _⟩ := Outcome.bind_eq_ok_iff.1 descaled
  exact ⟨number, decoded⟩

theorem decode_int (number : Nat) : decode (.int number) = .ok number := by
  have nonneg : ¬ (number : Int) < 0 := by omega
  unfold decode readScalar natural
  rw [Outcome.ok_do, if_neg nonneg, Int.toNat_natCast]

theorem toSeconds_eq (decoded : decode value = .ok number)
    (finite_ : (Binary64.ofInt number).isFinite = true) :
    toSeconds value = .ok (.ofInt number) := by
  have found : Binary64.ofInt? (number : Int) = some (.ofInt number) := by
    unfold Binary64.ofInt?
    dsimp only
    rw [if_pos finite_]
  unfold toSeconds
  rw [decoded, Outcome.ok_do, found]
  rfl

theorem toSeconds_cases {seconds : Binary64} (returned : toSeconds value = .ok seconds) :
    ∃ number : Nat, decode value = .ok number ∧ seconds = .ofInt number := by
  unfold toSeconds at returned
  obtain ⟨number, decoded, converted⟩ := Outcome.bind_eq_ok_iff.1 returned
  refine ⟨number, decoded, ?_⟩
  cases found : Binary64.ofInt? (number : Int) with
  | none =>
    rw [found] at converted
    cases converted
  | some exact_ =>
    rw [found] at converted
    cases converted
    exact (Binary64.ofInt?_eq_some found).1

end HyperbolicAuction.Amount
