import HyperbolicAuction.Auction.Basic
import HyperbolicAuction.Proofs.Amount.Descale
import HyperbolicAuction.Proofs.Binary64.Range

/-!
# Configurations and sales of ordinary size

An integer below `2 ^ 256`, divided by at most thirty-six tens, is zero or a value between `2 ^ -120`
and `2 ^ 256`; a time is one between zero and `2 ^ 256`. What is read of a chain is made of such
values.

Main statements: `isAmount_of_toHuman`, `upTo_of_toSeconds`, `Config.ofEntries_cases`,
`Config.ofEntries_eq_ok`, `Sale.ofRaw_cases`.
-/

namespace HyperbolicAuction

open Binary64 Scalar

attribute [local irreducible] overflowLimit unitsPerOne Text.digitLimit

/-- A value that stands for an amount: zero only for none. -/
structure IsAmount (number : Nat) (value : Binary64) : Prop where
  zero : number = 0 → isZero value = true
  within : number ≠ 0 → Within 954 1330 value

variable {number : Nat} {value : Binary64} {raw : Raw} {decimals : Int}

theorem IsAmount.upTo (isAmount : IsAmount number value) : UpTo 1330 value := by
  by_cases none_ : number = 0
  · exact upTo_of_isZero 1330 (isAmount.zero none_)
  · exact (isAmount.within none_).upTo

theorem writable_of_lt (small : number < 2 ^ 256) : number < 10 ^ Text.digitLimit := by
  have limit : 256 ≤ Text.digitLimit := by
    unfold Text.digitLimit
    decide
  calc number < 2 ^ 256 := small
    _ ≤ 10 ^ 256 := Nat.pow_le_pow_left (by decide) 256
    _ ≤ 10 ^ Text.digitLimit := Nat.pow_le_pow_right (by decide) limit

theorem toHuman_int (small : number < 2 ^ 256) :
    Amount.toHuman (.int number) 18 = .ok (ofQuotient false number (10 ^ 18)) :=
  Amount.toHuman_eq (Amount.decode_int number) (writable_of_lt small) (by decide)

/-- Thirty-six tens are below `2 ^ 120`, so even an amount of one is above `2 ^ -120`. -/
theorem isAmount_ofQuotient {places : Nat} (small : number < 2 ^ 256) (few : places ≤ 36) :
    IsAmount number (ofQuotient false number (10 ^ places)) := by
  constructor
  · intro none_
    rw [none_]
    unfold ofQuotient
    rw [Nat.zero_mul, isZero_ofUnits_iff (Nat.pow_pos (by decide))]
    exact Nat.zero_le _
  · intro some_
    have lower : 2 ^ 0 ≤ number := Nat.pos_of_ne_zero some_
    have tens : 10 ^ places ≤ 2 ^ 120 :=
      Nat.le_trans (Nat.pow_le_pow_right (by decide) few) (by decide)
    have one : 2 ^ 0 ≤ 10 ^ places := Nat.pow_pos (by decide)
    exact @within_ofQuotient 954 1330 number (10 ^ places) 0 256 0 120 lower (Nat.le_of_lt small)
      one tens (by decide) (by decide) (by decide) (by decide)

theorem isAmount_of_toHuman (returned : Amount.toHuman raw decimals = .ok value)
    (decoded : Amount.decode raw = .ok number) (small : number < 2 ^ 256)
    (few : decimals.toNat ≤ 36) : IsAmount number value := by
  rw [Amount.toHuman_eq decoded (writable_of_lt small) (Nat.le_trans few (by decide))] at returned
  cases returned
  exact isAmount_ofQuotient small few

theorem upTo_of_toSeconds (returned : Amount.toSeconds raw = .ok value)
    (small : ∀ number, Amount.decode raw = .ok number → number < 2 ^ 256) : UpTo 1330 value := by
  obtain ⟨number, decoded, rfl⟩ := Amount.toSeconds_cases returned
  have whole := (@isAmount_ofQuotient number 0 (small number decoded) (by decide)).upTo
  have sign : decide ((number : Int) < 0) = false := decide_eq_false (by omega)
  unfold ofInt
  rw [sign, Int.natAbs_natCast]
  exact whole

/-! ## What is read -/

theorem Config.ofEntries_cases {entries : List (String × Raw)} {config : Config Binary64}
    (read : Config.ofEntries entries decimals = .ok config) :
    (∃ raw, givenValue? entries "k" = some raw ∧ Amount.toHuman raw decimals = .ok config.k) ∧
      (givenValue? entries "pts").mapM (Amount.toHuman · decimals) = .ok config.accrual ∧
      (givenValue? entries "genesis_price").mapM (Amount.toHuman · decimals) =
        .ok config.genesisPrice ∧
      (givenValue? entries "genesis_floor").mapM (Amount.toHuman · decimals) =
        .ok config.genesisFloor ∧
      (givenOpenTime? entries).mapM Amount.toSeconds = .ok config.openTime := by
  unfold Config.ofEntries at read
  dsimp only at read
  obtain ⟨k?, decay, read⟩ := Outcome.bind_eq_ok_iff.1 read
  cases k? with
  | none => cases read
  | some k =>
    obtain ⟨accrual, accrues, read⟩ := Outcome.bind_eq_ok_iff.1 read
    obtain ⟨genesisPrice, priced, read⟩ := Outcome.bind_eq_ok_iff.1 read
    obtain ⟨genesisFloor, floored, read⟩ := Outcome.bind_eq_ok_iff.1 read
    obtain ⟨openTime, opens, read⟩ := Outcome.bind_eq_ok_iff.1 read
    cases read
    refine ⟨?_, accrues, priced, floored, opens⟩
    rcases Outcome.option_mapM_cases decay with ⟨_, absent⟩ | ⟨raw, human, given, returned, known⟩
    · cases absent
    · cases known
      exact ⟨raw, given, returned⟩

theorem Config.ofEntries_eq_ok {entries : List (String × Raw)} {config : Config Binary64}
    (given : givenValue? entries "k" = some raw)
    (decays : Amount.toHuman raw decimals = .ok config.k)
    (accrues : (givenValue? entries "pts").mapM (Amount.toHuman · decimals) = .ok config.accrual)
    (priced : (givenValue? entries "genesis_price").mapM (Amount.toHuman · decimals) =
      .ok config.genesisPrice)
    (floored : (givenValue? entries "genesis_floor").mapM (Amount.toHuman · decimals) =
      .ok config.genesisFloor)
    (opens : (givenOpenTime? entries).mapM Amount.toSeconds = .ok config.openTime) :
    Config.ofEntries entries decimals = .ok config := by
  have decay : (givenValue? entries "k").mapM (Amount.toHuman · decimals) =
      .ok (some config.k) := by
    rw [given]
    exact Outcome.some_mapM_ok decays
  unfold Config.ofEntries
  dsimp only
  rw [decay, Outcome.ok_do]
  dsimp only
  rw [accrues, priced, floored, opens]
  rfl

theorem Sale.ofRaw_cases {time price tokenId : Raw} {buyer : Option String} {sale : Sale Binary64}
    (read : Sale.ofRaw time price decimals buyer tokenId = .ok sale) :
    Amount.toSeconds time = .ok sale.time ∧ Amount.toHuman price decimals = .ok sale.price := by
  unfold Sale.ofRaw at read
  obtain ⟨seconds, timed, read⟩ := Outcome.bind_eq_ok_iff.1 read
  obtain ⟨human, priced, read⟩ := Outcome.bind_eq_ok_iff.1 read
  dsimp only at read
  split at read
  · cases read
    exact ⟨timed, priced⟩
  · obtain ⟨token, _, read⟩ := Outcome.bind_eq_ok_iff.1 read
    cases read
    exact ⟨timed, priced⟩

end HyperbolicAuction
