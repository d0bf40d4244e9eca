import HyperbolicAuction.Binary64.Basic
import HyperbolicAuction.Proofs.Rounding

/-!
# Laws of the binary64 grid

A grid point is a magnitude of at most 53 significant bits, the overflow limit included. Rounding
never crosses a grid point, and it keeps the order of quotients: a greater quotient is rounded to no
less. A grid point is rounded to itself, and no grid point is nearer to a quotient than the rounded
one, which has an even significand where another is as near.
-/

namespace HyperbolicAuction.Binary64

/-- Magnitudes with a significand of at most 53 bits, however great. -/
def IsOnGrid (units : Nat) : Prop :=
  ∃ significand exponent, significand < 2 ^ 53 ∧ units = significand * 2 ^ exponent

theorem IsRepresentable.isOnGrid {units : Nat} (representable : IsRepresentable units) :
    IsOnGrid units :=
  representable.2

theorem isOnGrid_two_pow (exponent : Nat) : IsOnGrid (2 ^ exponent) :=
  ⟨1, exponent, by decide, (Nat.one_mul _).symm⟩

theorem isOnGrid_zero : IsOnGrid 0 := ⟨0, 0, by decide, rfl⟩

theorem isOnGrid_overflowLimit : IsOnGrid overflowLimit := by
  have power := isOnGrid_two_pow 2098
  rwa [overflowLimit]

theorem spacing_pos (units : Nat) : 0 < spacing units := Nat.two_pow_pos _

/-- Below `2 ^ 53` neighbours are one unit apart. -/
theorem spacing_of_lt {units : Nat} (small : units < 2 ^ 53) : spacing units = 1 := by
  have low : units.log2 < 53 := by
    by_cases zero : units = 0
    · subst zero
      decide
    · exact (Nat.log2_lt zero).2 small
  have : units.log2 - 52 = 0 := by omega
  rw [spacing, this, Nat.pow_zero]

/-- From `2 ^ 53` on, a magnitude is at least `2 ^ 52` of its spacing. -/
theorem two_pow_mul_spacing_le {units : Nat} (large : 2 ^ 53 ≤ units) :
    2 ^ 52 * spacing units ≤ units := by
  have positive : units ≠ 0 := by omega
  have high : 53 ≤ units.log2 := (Nat.le_log2 positive).2 large
  rw [spacing, ← Nat.pow_add]
  calc 2 ^ (52 + (units.log2 - 52)) = 2 ^ units.log2 := by congr 1; omega
    _ ≤ units := Nat.log2_self_le positive

/-- A quotient that is not below `2 ^ 53` lies in a binade that begins at `2 ^ 52` of its spacing. -/
theorem two_pow_mul_spacing_mul_le {numerator denominator : Nat}
    (large : 2 ^ 53 ≤ numerator / denominator) :
    2 ^ 52 * spacing (numerator / denominator) * denominator ≤ numerator := by
  calc 2 ^ 52 * spacing (numerator / denominator) * denominator
      ≤ numerator / denominator * denominator :=
        Nat.mul_le_mul_right _ (two_pow_mul_spacing_le large)
    _ ≤ numerator := Nat.div_mul_le_self ..

/-- A grid point is a multiple of the spacing around every lesser magnitude. -/
theorem spacing_dvd_of_le {units point : Nat} (onGrid : IsOnGrid point) (below : units ≤ point) :
    spacing units ∣ point := by
  obtain ⟨significand, exponent, short, rfl⟩ := onGrid
  rcases Nat.lt_or_ge units (2 ^ 53) with small | large
  · rw [spacing_of_lt small]
    exact Nat.one_dvd _
  · have positive : units ≠ 0 := by omega
    have within : 2 ^ units.log2 < 2 ^ (53 + exponent) := by
      calc 2 ^ units.log2 ≤ units := Nat.log2_self_le positive
        _ ≤ significand * 2 ^ exponent := below
        _ < 2 ^ 53 * 2 ^ exponent := Nat.mul_lt_mul_of_pos_right short (Nat.two_pow_pos _)
        _ = 2 ^ (53 + exponent) := (Nat.pow_add ..).symm
    have lower : units.log2 < 53 + exponent := (Nat.pow_lt_pow_iff_right (by decide)).1 within
    exact Nat.dvd_mul_left_of_dvd (Nat.pow_dvd_pow 2 (by omega)) _

/-- A grid point at most a magnitude is a multiple of its spacing, or below `2 ^ 52` of it. -/
theorem spacing_dvd_or_lt (units : Nat) {point : Nat} (onGrid : IsOnGrid point) :
    spacing units ∣ point ∨ 2 ^ 53 ≤ units ∧ point < 2 ^ 52 * spacing units := by
  rcases Nat.lt_or_ge units (2 ^ 53) with small | large
  · left
    rw [spacing_of_lt small]
    exact Nat.one_dvd _
  · obtain ⟨significand, exponent, short, rfl⟩ := onGrid
    rcases Nat.lt_or_ge exponent (units.log2 - 52) with finer | coarser
    · right
      refine ⟨large, ?_⟩
      calc significand * 2 ^ exponent
          < 2 ^ 53 * 2 ^ exponent := Nat.mul_lt_mul_of_pos_right short (Nat.two_pow_pos _)
        _ = 2 ^ (53 + exponent) := (Nat.pow_add ..).symm
        _ ≤ 2 ^ (52 + (units.log2 - 52)) := Nat.pow_le_pow_right (by decide) (by omega)
        _ = 2 ^ 52 * spacing units := Nat.pow_add ..
    · left
      exact Nat.dvd_mul_left_of_dvd (Nat.pow_dvd_pow 2 coarser) _

variable {numerator denominator : Nat}

theorem roundUnits_le_of_le_mul {point : Nat} (positive : 0 < denominator)
    (onGrid : IsOnGrid point) (below : numerator ≤ point * denominator) :
    roundUnits numerator denominator ≤ point := by
  have quotientLe : numerator / denominator ≤ point :=
    Nat.div_le_of_le_mul (by rwa [Nat.mul_comm])
  obtain ⟨count, counted⟩ := spacing_dvd_of_le onGrid quotientLe
  have steps : nearestEven numerator (denominator * spacing (numerator / denominator)) ≤ count := by
    refine nearestEven_le_of_le_mul (Nat.mul_pos positive (spacing_pos _)) ?_
    calc numerator ≤ point * denominator := below
      _ = count * (denominator * spacing (numerator / denominator)) := by
        rw [counted]; ac_rfl
  calc roundUnits numerator denominator ≤ count * spacing (numerator / denominator) :=
        Nat.mul_le_mul_right _ steps
    _ = point := by rw [counted, Nat.mul_comm]

/-- A multiple of the spacing that is at most a quotient is at most the rounded quotient. -/
theorem mul_spacing_le_roundUnits {count : Nat} (positive : 0 < denominator)
    (above : count * spacing (numerator / denominator) * denominator ≤ numerator) :
    count * spacing (numerator / denominator) ≤ roundUnits numerator denominator := by
  refine Nat.mul_le_mul_right _ (le_nearestEven_of_mul_le (Nat.mul_pos positive (spacing_pos _)) ?_)
  calc count * (denominator * spacing (numerator / denominator))
      = count * spacing (numerator / denominator) * denominator := by ac_rfl
    _ ≤ numerator := above

theorem le_roundUnits_of_mul_le {point : Nat} (positive : 0 < denominator)
    (onGrid : IsOnGrid point) (above : point * denominator ≤ numerator) :
    point ≤ roundUnits numerator denominator := by
  rcases spacing_dvd_or_lt (numerator / denominator) onGrid with
    ⟨count, counted⟩ | ⟨large, finer⟩
  · rw [Nat.mul_comm] at counted
    rw [counted] at above ⊢
    exact mul_spacing_le_roundUnits positive above
  · -- a point off the grid of the quotient lies below the power of two that begins that grid
    exact Nat.le_trans (Nat.le_of_lt finer)
      (mul_spacing_le_roundUnits positive (two_pow_mul_spacing_mul_le large))

theorem roundUnits_mul_self {point : Nat} (positive : 0 < denominator) (onGrid : IsOnGrid point) :
    roundUnits (point * denominator) denominator = point :=
  Nat.le_antisymm (roundUnits_le_of_le_mul positive onGrid (Nat.le_refl _))
    (le_roundUnits_of_mul_le positive onGrid (Nat.le_refl _))

/-- A quotient is rounded to zero exactly if it is at most half a unit. -/
theorem roundUnits_eq_zero_iff (positive : 0 < denominator) :
    roundUnits numerator denominator = 0 ↔ 2 * numerator ≤ denominator := by
  have fine (small : numerator < denominator) :
      roundUnits numerator denominator = nearestEven numerator denominator := by
    unfold roundUnits
    rw [Nat.div_eq_of_lt small, spacing_of_lt (by decide), Nat.mul_one, Nat.mul_one]
  constructor
  · intro vanished
    rcases Nat.lt_or_ge numerator denominator with small | reached
    · rw [fine small, nearestEven_eq_zero_iff small] at vanished
      exact vanished
    · have one : 1 ≤ roundUnits numerator denominator :=
        le_roundUnits_of_mul_le positive (isOnGrid_two_pow 0) (by simpa using reached)
      omega
  · intro half
    have small : numerator < denominator := by omega
    rw [fine small, nearestEven_eq_zero_iff small]
    exact half

theorem roundUnits_mono {other otherDenominator : Nat} (positive : 0 < denominator)
    (otherPositive : 0 < otherDenominator)
    (ordered : numerator * otherDenominator ≤ other * denominator) :
    roundUnits numerator denominator ≤ roundUnits other otherDenominator := by
  have wholes := div_le_div_of_mul_le positive otherPositive ordered
  by_cases same : (numerator / denominator).log2 = (other / otherDenominator).log2
  · have spacings : spacing (numerator / denominator) = spacing (other / otherDenominator) := by
      rw [spacing, spacing, same]
    rw [roundUnits, roundUnits, spacings]
    refine Nat.mul_le_mul_right _ (nearestEven_mono (Nat.mul_pos positive (spacing_pos _))
      (Nat.mul_pos otherPositive (spacing_pos _)) ?_)
    rw [← Nat.mul_assoc, ← Nat.mul_assoc]
    exact Nat.mul_le_mul_right _ ordered
  · -- a power of two, which is on the grid, separates the quotients
    have otherWhole : other / otherDenominator ≠ 0 := by
      intro zero
      rw [zero] at wholes same
      exact same (by rw [Nat.le_zero.1 wholes])
    have lower : numerator / denominator < 2 ^ (other / otherDenominator).log2 := by
      refine Nat.lt_of_not_le fun level => same ?_
      have whole : numerator / denominator ≠ 0 :=
        Nat.ne_of_gt (Nat.lt_of_lt_of_le (Nat.two_pow_pos _) level)
      exact Nat.le_antisymm
        ((Nat.le_log2 otherWhole).2 (Nat.le_trans (Nat.log2_self_le whole) wholes))
        ((Nat.le_log2 whole).2 level)
    calc roundUnits numerator denominator ≤ 2 ^ (other / otherDenominator).log2 :=
          roundUnits_le_of_le_mul positive (isOnGrid_two_pow _)
            (Nat.le_of_lt ((Nat.div_lt_iff_lt_mul positive).1 lower))
      _ ≤ roundUnits other otherDenominator :=
          le_roundUnits_of_mul_le otherPositive (isOnGrid_two_pow _)
            ((Nat.le_div_iff_mul_le otherPositive).1 (Nat.log2_self_le otherWhole))

/-- Quotients that are equal are rounded alike. -/
theorem roundUnits_mul_mul {factor : Nat} (positive : 0 < denominator) (scaled : 0 < factor) :
    roundUnits (numerator * factor) (denominator * factor) = roundUnits numerator denominator := by
  have product : 0 < denominator * factor := Nat.mul_pos positive scaled
  refine Nat.le_antisymm (roundUnits_mono product positive ?_) (roundUnits_mono positive product ?_)
  · exact Nat.le_of_eq (by ac_rfl)
  · exact Nat.le_of_eq (by ac_rfl)

/-- Below `2 ^ 53` every whole number of units is on the grid. -/
theorem roundUnits_one_of_lt {units : Nat} (small : units < 2 ^ 53) :
    roundUnits units 1 = units := by
  have onGrid : IsOnGrid units := ⟨units, 0, small, (Nat.mul_one units).symm⟩
  have rounded := roundUnits_mul_self Nat.one_pos onGrid
  rwa [Nat.mul_one] at rounded

theorem roundUnits_one (units : Nat) :
    roundUnits units 1 = nearestEven units (spacing units) * spacing units := by
  unfold roundUnits
  dsimp only
  rw [Nat.div_one, Nat.one_mul]

/-- Rounding a whole number of units adds at most one part in `2 ^ 53` of it. -/
theorem roundUnits_one_error (units : Nat) :
    2 ^ 53 * roundUnits units 1 ≤ (2 ^ 53 + 1) * units := by
  rcases Nat.lt_or_ge units (2 ^ 53) with small | large
  · rw [roundUnits_one_of_lt small]
    omega
  · have added := two_mul_nearestEven_mul_le units (spacing units)
    have least := two_pow_mul_spacing_le large
    rw [roundUnits_one]
    omega

/-- Nor does it take more than that away. -/
theorem le_roundUnits_one (units : Nat) : (2 ^ 53 - 1) * units ≤ 2 ^ 53 * roundUnits units 1 := by
  rcases Nat.lt_or_ge units (2 ^ 53) with small | large
  · rw [roundUnits_one_of_lt small]
    omega
  · have taken := two_mul_le_nearestEven_mul units (spacing_pos units)
    have least := two_pow_mul_spacing_le large
    rw [roundUnits_one]
    omega

/-! ## Nearest points -/

/-- A magnitude whose significand is even. -/
def HasEvenSignificand (units : Nat) : Prop :=
  ∃ significand exponent, significand < 2 ^ 53 ∧ significand % 2 = 0 ∧
    units = significand * 2 ^ exponent

theorem offBy_mul (numerator denominator step : Nat) (whole : Int) :
    offBy numerator denominator (whole * step) = offBy numerator (denominator * step) whole := by
  unfold offBy
  rw [Int.natCast_mul, Int.mul_assoc, Int.mul_comm (step : Int)]

/-- The distance of a rounded quotient is that of a rounded number of steps. -/
theorem offBy_roundUnits (numerator denominator : Nat) :
    offBy numerator denominator (roundUnits numerator denominator) =
      offBy numerator (denominator * spacing (numerator / denominator))
        (nearestEven numerator (denominator * spacing (numerator / denominator))) := by
  rw [← offBy_mul, ← Int.natCast_mul]
  rfl

/-- A grid point is a number of steps, or it lies below the binade of the quotient and is farther
away than the beginning of that. -/
theorem exists_steps_or_offBy_lt (positive : 0 < denominator) {point : Int}
    (onGrid : IsOnGrid point.natAbs) :
    (∃ count : Int, point = count * spacing (numerator / denominator)) ∨
      offBy numerator denominator (roundUnits numerator denominator) <
        offBy numerator denominator point := by
  rcases spacing_dvd_or_lt (numerator / denominator) onGrid with multiple | ⟨large, finer⟩
  · obtain ⟨count, counted⟩ := Int.ofNat_dvd_left.2 multiple
    exact .inl ⟨count, by rw [counted, Int.mul_comm]⟩
  · right
    have steps : 0 < denominator * spacing (numerator / denominator) :=
      Nat.mul_pos positive (spacing_pos _)
    have begun := two_pow_mul_spacing_mul_le large
    have below : point * denominator < (2 ^ 52 * spacing (numerator / denominator) : Nat) *
        (denominator : Int) :=
      Int.mul_lt_mul_of_pos_right (by omega) (by omega)
    have nearest := @offBy_nearestEven_le numerator _ steps (2 ^ 52 : Nat)
    rw [← offBy_roundUnits, ← offBy_mul, ← Int.natCast_mul] at nearest
    refine Nat.lt_of_le_of_lt nearest ?_
    unfold offBy
    omega

/-- No grid point is nearer to a quotient than the rounded one. -/
theorem offBy_roundUnits_le (positive : 0 < denominator) {point : Int}
    (onGrid : IsOnGrid point.natAbs) :
    offBy numerator denominator (roundUnits numerator denominator) ≤
      offBy numerator denominator point := by
  rcases @exists_steps_or_offBy_lt numerator _ positive _ onGrid with ⟨count, rfl⟩ | less
  · rw [offBy_roundUnits, offBy_mul]
    exact offBy_nearestEven_le (Nat.mul_pos positive (spacing_pos _)) count
  · exact Nat.le_of_lt less

theorem nearestEven_steps_le (numerator denominator : Nat) :
    nearestEven numerator (denominator * spacing (numerator / denominator)) ≤ 2 ^ 53 := by
  have quotient := div_spacing_lt (numerator / denominator)
  rw [Nat.div_div_eq_div_mul] at quotient
  exact Nat.le_trans (nearestEven_le_div_succ _ _) quotient

/-- Where another grid point is as near, the rounded one has an even significand. -/
theorem hasEvenSignificand_of_tie (positive : 0 < denominator) {point : Int}
    (onGrid : IsOnGrid point.natAbs) (apart : point ≠ roundUnits numerator denominator)
    (tie : offBy numerator denominator point ≤
      offBy numerator denominator (roundUnits numerator denominator)) :
    HasEvenSignificand (roundUnits numerator denominator) := by
  rcases @exists_steps_or_offBy_lt numerator _ positive _ onGrid with ⟨count, rfl⟩ | less
  · rw [offBy_roundUnits, offBy_mul] at tie
    have otherCount :
        count ≠ nearestEven numerator (denominator * spacing (numerator / denominator)) := by
      rintro rfl
      exact apart (Int.natCast_mul _ _).symm
    have even := nearestEven_even_of_tie (Nat.mul_pos positive (spacing_pos _)) otherCount tie
    rcases Nat.lt_or_eq_of_le (nearestEven_steps_le numerator denominator) with short | full
    · exact ⟨_, _, short, even, rfl⟩
    · refine ⟨2, 52 + ((numerator / denominator).log2 - 52), by decide, rfl, ?_⟩
      rw [roundUnits, full, spacing, ← Nat.pow_add, ← Nat.pow_succ']
      congr 1
      omega
  · exact absurd tie (Nat.not_le.2 less)

/-- Between two magnitudes with even significands there is a grid point. -/
theorem exists_onGrid_between {low high : Nat} (lowEven : HasEvenSignificand low)
    (highEven : HasEvenSignificand high) (less : low < high) :
    ∃ point, IsOnGrid point ∧ low < point ∧ point < high := by
  obtain ⟨lowDigits, lowExponent, lowShort, lowHalf, rfl⟩ := lowEven
  obtain ⟨highDigits, highExponent, highShort, highHalf, rfl⟩ := highEven
  rcases Nat.le_total lowExponent highExponent with order | order
  · obtain ⟨more, rfl⟩ := Nat.exists_eq_add_of_le order
    have step := Nat.two_pow_pos lowExponent
    have half : highDigits * 2 ^ more % 2 = 0 := by
      rw [Nat.mul_mod, highHalf, Nat.zero_mul, Nat.zero_mod]
    rw [Nat.pow_add, ← Nat.mul_assoc, Nat.mul_right_comm] at less ⊢
    have counts := Nat.lt_of_mul_lt_mul_right less
    exact ⟨_, ⟨lowDigits + 1, lowExponent, by omega, rfl⟩,
      Nat.mul_lt_mul_of_pos_right (by omega) step, Nat.mul_lt_mul_of_pos_right (by omega) step⟩
  · obtain ⟨more, rfl⟩ := Nat.exists_eq_add_of_le order
    have step := Nat.two_pow_pos highExponent
    have half : lowDigits * 2 ^ more % 2 = 0 := by
      rw [Nat.mul_mod, lowHalf, Nat.zero_mul, Nat.zero_mod]
    rw [Nat.pow_add, ← Nat.mul_assoc, Nat.mul_right_comm] at less ⊢
    have counts := Nat.lt_of_mul_lt_mul_right less
    exact ⟨_, ⟨highDigits - 1, highExponent, by omega, rfl⟩,
      Nat.mul_lt_mul_of_pos_right (by omega) step, Nat.mul_lt_mul_of_pos_right (by omega) step⟩

end HyperbolicAuction.Binary64
