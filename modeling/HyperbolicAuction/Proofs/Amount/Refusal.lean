import HyperbolicAuction.Proofs.Amount.Descale
import HyperbolicAuction.Proofs.Amount.Encoding
import HyperbolicAuction.Proofs.Binary64.Overflow

/-!
# How amounts are refused

What is not an amount is refused as a value that is not acceptable. There are two exceptions among
the scalars: an infinity of decimal arithmetic is beyond every integer, and a decimal number that
signals may not even be compared. `Offends` says where they are met: as the scalar itself, as a limb,
of which the low one is read first, or under wrappers. Scaling an amount refuses nothing else; a time
has to be a finite value besides.

Main statements: `escapes_decode_iff`, `escapes_toHuman_iff`, `escapes_toSeconds_iff`.
-/

namespace HyperbolicAuction

/-- A reading fails, and for another reason than that the value is not acceptable. -/
def Escapes {α : Type} (kind : ErrorKind) (outcome : Except AmountError α) : Prop :=
  ∃ error, outcome = .error error ∧ error.kind = kind ∧ error.kind ≠ .invalidValue

namespace Escapes

variable {α β : Type} {kind : ErrorKind} {error : AmountError} {value : α}
  {first : Except AmountError α} {next : α → Except AmountError β}

@[simp]
theorem error_iff : Escapes kind (.error error : Except AmountError α) ↔
    error.kind = kind ∧ error.kind ≠ .invalidValue := by
  simp [Escapes]

@[simp]
theorem not_ok : ¬ Escapes kind (.ok value : Except AmountError α) := by
  simp [Escapes]

@[simp]
theorem throw_iff : Escapes kind (throw error : Except AmountError α) ↔
    error.kind = kind ∧ error.kind ≠ .invalidValue :=
  error_iff

@[simp]
theorem not_pure : ¬ Escapes kind (pure value : Except AmountError α) :=
  not_ok

theorem bind_iff : Escapes kind (first >>= next) ↔
    Escapes kind first ∨ ∃ value, first = .ok value ∧ Escapes kind (next value) := by
  simp only [Escapes, Outcome.bind_eq_error_iff]
  constructor
  · rintro ⟨error, failed | ⟨value, returned, failed⟩, other⟩
    · exact .inl ⟨error, failed, other⟩
    · exact .inr ⟨value, returned, error, failed, other⟩
  · rintro (⟨error, failed, other⟩ | ⟨value, returned, error, failed, other⟩)
    · exact ⟨error, .inl failed, other⟩
    · exact ⟨error, .inr ⟨value, returned, failed⟩, other⟩

@[simp]
theorem map_iff {view : α → β} : Escapes kind (view <$> first) ↔ Escapes kind first := by
  cases first with
  | error error => simp [Functor.map, Except.map]
  | ok value => simp [Functor.map, Except.map]

/-- Steps that only refuse what is not acceptable leave it to the first step to escape. -/
theorem bind_iff_first (never : ∀ value, ¬ Escapes kind (next value)) :
    Escapes kind (first >>= next) ↔ Escapes kind first := by
  simp [bind_iff, never]

end Escapes

namespace Amount

attribute [local irreducible] Binary64.overflowLimit Binary64.unitsPerOne Text.digitLimit

/-- Why a scalar is refused for another reason than that it is not acceptable, if it is. -/
def offence? : Raw → Option ErrorKind
  | .decimal (.infinity _) => some .outOfRange
  | .decimal (.nan _ true _) => some .undefinedOperation
  | _ => none

/-- A scalar that offends is met, where it takes a number to go on. -/
inductive Offends (kind : ErrorKind) : Raw → Prop
  | scalar {value : Raw} (found : offence? value = some kind) : Offends kind value
  | low {value low high : Raw} (hasLimbs : HasLimbs value low high)
      (found : offence? low = some kind) : Offends kind value
  | high {value low high : Raw} {lowLimb : Int} (hasLimbs : HasLimbs value low high)
      (lowRead : readScalar low = .ok lowLimb) (found : offence? high = some kind) :
      Offends kind value
  | wrapper {entries : List (String × Raw)} {inner : Raw} (wraps : Wraps entries inner)
      (offends : Offends kind inner) : Offends kind (.mapping entries)

variable {kind : ErrorKind} {value low high : Raw} {decimals : Int}

/-! ## Scalars -/

/-- A text is never refused for another reason than that it is not acceptable. -/
theorem not_escapes_readText (text : String) : ¬ Escapes kind (readText text) := by
  rintro ⟨error, refused, _, other⟩
  exact other (kind_of_readText refused)

theorem escapes_readScalar_iff : Escapes kind (readScalar value) ↔ offence? value = some kind := by
  cases value with
  | text text => simp [readScalar, offence?, not_escapes_readText]
  | decimal number =>
    cases number with
    | nan negative signals payload =>
      cases signals <;> simp [readScalar, offence?, AmountError.kind, DecimalError.kind]
    | infinity negative => simp [readScalar, offence?, AmountError.kind]
    | finite negative coefficient exponent =>
      rw [readScalar]
      split <;> simp [offence?, AmountError.kind]
  | float number =>
    rw [readScalar]
    split <;> simp [offence?, AmountError.kind]
  | _ => simp [readScalar, offence?, AmountError.kind]

/-! ## Decoding -/

theorem not_escapes_natural (number : Int) : ¬ Escapes kind (natural number) := by
  rintro ⟨error, refused, _, other⟩
  exact other (kind_of_natural refused)

/-- The low limb is read first, so the high one is only met where the low one is an integer. -/
theorem escapes_joinLimbs_iff : Escapes kind (joinLimbs low high) ↔
    offence? low = some kind ∨
      ∃ lowLimb, readScalar low = .ok lowLimb ∧ offence? high = some kind := by
  unfold joinLimbs
  rw [Escapes.bind_iff, escapes_readScalar_iff]
  refine or_congr_right (exists_congr fun lowLimb => and_congr_right fun _ => ?_)
  rw [Escapes.bind_iff_first, escapes_readScalar_iff]
  intro highLimb
  dsimp only
  split
  · simp [AmountError.kind]
  · simp

theorem offends_of_escapes_joinLimbs (hasLimbs : HasLimbs value low high)
    (escapes : Escapes kind (joinLimbs low high)) : Offends kind value := by
  rcases escapes_joinLimbs_iff.1 escapes with found | ⟨lowLimb, lowRead, found⟩
  · exact .low hasLimbs found
  · exact .high hasLimbs lowRead found

theorem offends_of_escapes_decode (escapes : Escapes kind (decode value)) : Offends kind value := by
  induction value using decode_induction with
  | limbs value low high hasLimbs =>
    rw [decode_of_hasLimbs hasLimbs] at escapes
    exact offends_of_escapes_joinLimbs hasLimbs escapes
  | wrapper entries inner wraps ih =>
    rw [decode_of_wraps wraps] at escapes
    exact .wrapper wraps (ih escapes)
  | bare value error refused kept =>
    rw [refused, Escapes.error_iff] at escapes
    exact absurd kept escapes.2
  | scalar value decodes =>
    rw [decodes, Escapes.bind_iff_first not_escapes_natural, escapes_readScalar_iff] at escapes
    exact .scalar escapes

theorem escapes_decode_of_offence (found : offence? value = some kind) :
    Escapes kind (decode value) := by
  cases value with
  | decimal number =>
    rw [decode.eq_4 _ (fun _ => Raw.noConfusion) (fun _ => Raw.noConfusion)
      (fun _ => Raw.noConfusion), Escapes.bind_iff_first not_escapes_natural,
      escapes_readScalar_iff]
    exact found
  | _ => cases found

/-- A value is refused for another reason than that it is not acceptable exactly where an offending
scalar is met. -/
theorem escapes_decode_iff : Escapes kind (decode value) ↔ Offends kind value := by
  constructor
  · exact offends_of_escapes_decode
  · intro offends
    induction offends with
    | scalar found => exact escapes_decode_of_offence found
    | low hasLimbs found =>
      rw [decode_of_hasLimbs hasLimbs, escapes_joinLimbs_iff]
      exact .inl found
    | high hasLimbs lowRead found =>
      rw [decode_of_hasLimbs hasLimbs, escapes_joinLimbs_iff]
      exact .inr ⟨_, lowRead, found⟩
    | wrapper wraps _ ih =>
      rw [decode_of_wraps wraps]
      exact ih

/-! ## Human units and seconds -/

/-- Scaling an amount refuses nothing for another reason than that it is not acceptable. -/
theorem escapes_descale_iff : Escapes kind (descale value decimals) ↔ Offends kind value := by
  unfold descale
  rw [Escapes.bind_iff_first, escapes_decode_iff]
  intro number
  split
  · simp [AmountError.kind]
  · simp

theorem escapes_toHuman_iff : Escapes kind (toHuman value decimals) ↔ Offends kind value := by
  unfold toHuman
  rw [Escapes.bind_iff_first, escapes_descale_iff]
  simp

/-- A time is refused besides where it is too great to be a finite value. -/
theorem escapes_toSeconds_iff : Escapes kind (toSeconds value) ↔
    Offends kind value ∨
      kind = .outOfRange ∧ ∃ number, decode value = .ok number ∧ Binary64.leastInfinite ≤ number := by
  unfold toSeconds
  rw [Escapes.bind_iff, escapes_decode_iff, ← exists_and_left]
  refine or_congr_right (exists_congr fun number => ?_)
  rw [and_left_comm, ← Binary64.ofInt?_eq_none_iff]
  refine and_congr_right fun _ => ?_
  cases Binary64.ofInt? number with
  | none => simp [AmountError.kind, eq_comm]
  | some seconds => simp

end Amount

end HyperbolicAuction
