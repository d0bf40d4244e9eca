import HyperbolicAuction.Proofs.Amount.Encoding

/-!
# The parts of an amount

An amount is decoded from one scalar or from two limbs, which stand at the end of any wrappers: its
parts. They are kept from being negative, and from nothing else. So parts of the width that they
should have make an amount of 256 bits, and of such limbs an amount has no others. But a low limb may
be wider, and then it runs into the high one (`Parts.carry`): up to that, and no further, the amount
determines its limbs. It has 256 bits exactly if the parts fit once the low limb has been carried.

Main statements: `decode_width`, and `decode_exceeds_width`, where parts are too wide.
-/

namespace HyperbolicAuction.Amount

/-- The numbers that an amount is made of. -/
inductive Parts where
  | scalar (number : Nat)
  | limbs (low high : Nat)
deriving DecidableEq, Repr

namespace Parts

/-- The amount that is made of these parts. -/
def amount : Parts → Nat
  | scalar number => number
  | limbs low high => low + high * limbWeight

/-- Whether there are two parts. -/
def isLimbs : Parts → Bool
  | scalar _ => false
  | limbs _ _ => true

/-- No part is wider than it should be: a scalar has 256 bits, and a limb 128. -/
def Fit : Parts → Prop
  | scalar number => number < 2 ^ 256
  | limbs low high => low < 2 ^ 128 ∧ high < 2 ^ 128

/-- The parts after what the low limb has beyond its width is counted to the high one. -/
def carry : Parts → Parts
  | scalar number => scalar number
  | limbs low high => limbs (low % limbWeight) (high + low / limbWeight)

theorem carry_eq_self_of_fit {parts : Parts} (fit : parts.Fit) : parts.carry = parts := by
  cases parts with
  | scalar number => rfl
  | limbs low high =>
    have narrow : low < limbWeight := fit.1
    rw [carry, Nat.mod_eq_of_lt narrow, Nat.div_eq_of_lt narrow, Nat.add_zero]

theorem amount_lt_iff (parts : Parts) : parts.amount < 2 ^ 256 ↔ parts.carry.Fit := by
  cases parts with
  | scalar number => exact Iff.rfl
  | limbs low high =>
    simp only [amount, carry, Fit, limbWeight]
    omega

/-- Parts of one kind make the same amount exactly if they are the same after the carry. -/
theorem amount_eq_iff {parts other : Parts} (sameKind : other.isLimbs = parts.isLimbs) :
    other.amount = parts.amount ↔ other.carry = parts.carry := by
  cases parts with
  | scalar number =>
    cases other with
    | scalar otherNumber => simp only [amount, carry, Parts.scalar.injEq]
    | limbs low high => cases sameKind
  | limbs low high =>
    cases other with
    | scalar number => cases sameKind
    | limbs otherLow otherHigh =>
      simp only [amount, carry, limbWeight, Parts.limbs.injEq]
      omega

end Parts

/-- A value has parts: a scalar, or two limbs, at the end of any wrappers. -/
inductive HasParts : Raw → Parts → Prop
  | scalar {value : Raw} {number : Nat} (read : readScalar value = .ok (number : Int)) :
      HasParts value (.scalar number)
  | limbs {value low high : Raw} {lowLimb highLimb : Nat} (hasLimbs : HasLimbs value low high)
      (lowRead : readScalar low = .ok (lowLimb : Int))
      (highRead : readScalar high = .ok (highLimb : Int)) : HasParts value (.limbs lowLimb highLimb)
  | wrapper {entries : List (String × Raw)} {inner : Raw} {parts : Parts}
      (wraps : Wraps entries inner) (hasParts : HasParts inner parts) :
      HasParts (.mapping entries) parts

variable {value : Raw} {parts : Parts} {number : Nat}

theorem HasParts.decode_eq (hasParts : HasParts value parts) : decode value = .ok parts.amount := by
  induction hasParts with
  | scalar read =>
    rw [decode_of_readScalar read, natural_eq_ok_iff]
    rfl
  | limbs hasLimbs lowRead highRead =>
    rw [decode_of_hasLimbs hasLimbs, joinLimbs_eq_ok_iff]
    exact ⟨_, _, lowRead, highRead, rfl⟩
  | wrapper wraps _ ih => rw [decode_of_wraps wraps, ih]

/-- A value that is decoded has parts that make its amount. -/
theorem exists_hasParts (decoded : decode value = .ok number) :
    ∃ parts, HasParts value parts ∧ parts.amount = number := by
  induction value using decode_induction with
  | limbs value low high hasLimbs =>
    rw [decode_of_hasLimbs hasLimbs, joinLimbs_eq_ok_iff] at decoded
    obtain ⟨lowLimb, highLimb, lowRead, highRead, rfl⟩ := decoded
    exact ⟨_, .limbs hasLimbs lowRead highRead, rfl⟩
  | wrapper entries inner wraps ih =>
    rw [decode_of_wraps wraps] at decoded
    obtain ⟨parts, hasParts, same⟩ := ih decoded
    exact ⟨parts, .wrapper wraps hasParts, same⟩
  | bare value error refused =>
    rw [refused] at decoded
    cases decoded
  | scalar value decodes =>
    rw [decodes] at decoded
    obtain ⟨held, read, kept⟩ := Outcome.bind_eq_ok_iff.1 decoded
    rw [natural_eq_ok_iff.1 kept] at read
    exact ⟨_, .scalar read, rfl⟩

/-- What is decoded is the amount of its parts. It has 256 bits exactly if the parts fit after the
carry, which changes no parts that fit already; and parts of one kind make the same amount exactly if
they are the same after the carry. -/
theorem decode_width (value : Raw) :
    (∀ number, decode value = .ok number ↔ ∃ parts, HasParts value parts ∧ parts.amount = number) ∧
    ∀ parts, HasParts value parts →
      (parts.amount < 2 ^ 256 ↔ parts.carry.Fit) ∧
      (parts.Fit → parts.carry = parts) ∧
      ∀ other otherParts, HasParts other otherParts → otherParts.isLimbs = parts.isLimbs →
        (decode other = decode value ↔ otherParts.carry = parts.carry) := by
  constructor
  · intro number
    constructor
    · exact exists_hasParts
    · rintro ⟨parts, hasParts, rfl⟩
      exact hasParts.decode_eq
  · intro parts hasParts
    refine ⟨parts.amount_lt_iff, Parts.carry_eq_self_of_fit, ?_⟩
    intro other otherParts otherHasParts sameKind
    rw [hasParts.decode_eq, otherHasParts.decode_eq, Except.ok.injEq]
    exact Parts.amount_eq_iff sameKind

/-- Limbs in a wrapper, the low one of which has a bit too many. -/
def spilledLimbs : Raw :=
  .mapping [("raw", .null), ("value", .list [.int (2 ^ 128 + 5), .int 1])]

theorem decode_width_spilled :
    HasParts spilledLimbs (.limbs (2 ^ 128 + 5) 1) ∧
      HasParts (.tuple [.int 5, .int 2]) (.limbs 5 2) ∧
      decode (.tuple [.int 5, .int 2]) = decode spilledLimbs ∧
      Parts.amount (.limbs (2 ^ 128 + 5) 1) < 2 ^ 256 := by
  have wraps : Wraps [("raw", .null), ("value", .list [.int (2 ^ 128 + 5), .int 1])]
      (.list [.int (2 ^ 128 + 5), .int 1]) := by
    refine ⟨.inl rfl, ["raw"], "value", ["dec"], rfl, rfl, rfl, ?_⟩
    intro other mem value found
    rw [List.mem_singleton.1 mem] at found
    cases found
    rfl
  have spilled : HasParts spilledLimbs (.limbs (2 ^ 128 + 5) 1) :=
    .wrapper wraps (.limbs (.list _ _ _) rfl rfl)
  have plain : HasParts (.tuple [.int 5, .int 2]) (.limbs 5 2) :=
    .limbs (.tuple _ _ _) rfl rfl
  obtain ⟨fits_iff, -, same_iff⟩ := (decode_width spilledLimbs).2 _ spilled
  exact ⟨spilled, plain, (same_iff _ _ plain rfl).2 (by decide +kernel),
    fits_iff.2 ⟨by decide +kernel, by decide +kernel⟩⟩

/-- A scalar of 257 bits is decoded, and a low limb of 129 bits to the amount of other limbs. -/
theorem decode_exceeds_width :
    decode (.int (2 ^ 256)) = .ok (2 ^ 256) ∧
      decode (.tuple [.int (2 ^ 128), .int 0]) = .ok (2 ^ 128) ∧
      decode (.tuple [.int 0, .int 1]) = .ok (2 ^ 128) := by
  have wide : HasParts (.int (2 ^ 256)) (.scalar (2 ^ 256)) := .scalar rfl
  have wideLow : HasParts (.tuple [.int (2 ^ 128), .int 0]) (.limbs (2 ^ 128) 0) :=
    .limbs (.tuple _ _ _) rfl rfl
  have high : HasParts (.tuple [.int 0, .int 1]) (.limbs 0 1) := .limbs (.tuple _ _ _) rfl rfl
  exact ⟨wide.decode_eq, wideLow.decode_eq, high.decode_eq⟩

end HyperbolicAuction.Amount
