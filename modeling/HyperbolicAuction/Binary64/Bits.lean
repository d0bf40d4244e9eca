import HyperbolicAuction.Binary64.Basic

/-!
# The interchange bits of a binary64 number

A word of 64 bits has a sign bit, eleven exponent bits and 52 fraction bits. Its magnitude is the
fraction for an exponent of zero, and otherwise a leading one before the fraction, shifted by the
exponent less one.
-/

namespace HyperbolicAuction.Binary64

/-- The greatest exponent field; it marks the infinities and what is not a number. -/
def exponentMask : Nat := 2047

theorem isRepresentable_subnormal {fraction : Nat} (bounded : fraction < 2 ^ 52) :
    IsRepresentable fraction := by
  refine ⟨Nat.lt_of_lt_of_le bounded (two_pow_le_overflowLimit (by decide)), fraction, 0, ?_⟩
  exact ⟨Nat.lt_of_lt_of_le bounded (by decide), by simp⟩

theorem isRepresentable_normal {fraction exponent : Nat} (bounded : fraction < 2 ^ 52)
    (low : exponent ≤ 2046) : IsRepresentable ((2 ^ 52 + fraction) * 2 ^ (exponent - 1)) := by
  have significand : 2 ^ 52 + fraction < 2 ^ 53 := by omega
  refine ⟨?_, 2 ^ 52 + fraction, exponent - 1, significand, rfl⟩
  calc (2 ^ 52 + fraction) * 2 ^ (exponent - 1)
      < 2 ^ 53 * 2 ^ (exponent - 1) := Nat.mul_lt_mul_of_pos_right significand (Nat.two_pow_pos _)
    _ = 2 ^ (53 + (exponent - 1)) := (Nat.pow_add ..).symm
    _ ≤ overflowLimit := two_pow_le_overflowLimit (by omega)

/-- The value of a word of 64 bits; bits beyond the sign bit are ignored. -/
def ofBits (word : Nat) : Binary64 :=
  let negative := word / 2 ^ 63 % 2 = 1
  let exponent := word / 2 ^ 52 % 2 ^ 11
  let fraction := word % 2 ^ 52
  have bounded : fraction < 2 ^ 52 := Nat.mod_lt _ (Nat.two_pow_pos 52)
  if low : exponent < exponentMask then
    if exponent = 0 then finite negative fraction (isRepresentable_subnormal bounded)
    else finite negative _ (isRepresentable_normal bounded (Nat.le_of_lt_succ low))
  else if fraction = 0 then infinity negative
  else nan

/-- The exponent and fraction bits of a magnitude. -/
def magnitudeBits (units : Nat) : Nat :=
  if units < 2 ^ 52 then units
  else
    let shift := units.log2 - 52
    (shift + 1) * 2 ^ 52 + (units / 2 ^ shift - 2 ^ 52)

/-- The word of a value; what is not a number has the word with the quiet bit alone. -/
def toBits : Binary64 → Nat
  | nan => exponentMask * 2 ^ 52 + 2 ^ 51
  | infinity negative => negative.toNat * 2 ^ 63 + exponentMask * 2 ^ 52
  | finite negative units _ => negative.toNat * 2 ^ 63 + magnitudeBits units

end HyperbolicAuction.Binary64
