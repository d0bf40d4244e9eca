import HyperbolicAuction.Amount.Decode
import HyperbolicAuction.Proofs.Outcome
import HyperbolicAuction.Proofs.Text.Grammar

/-!
# Which texts are amounts

A text is an amount exactly if what stands in it between blanks is an integer in writing, and that
integer is not negative. Every other text is refused as a value that is not acceptable.

Main statements: `readText_eq_ok_iff`, `decode_text`.
-/

namespace HyperbolicAuction.Amount

open Text

attribute [local irreducible] digitLimit

/-- Between blanks, a text holds an integer in writing of so many decimal digits at most. -/
def Denotes (width : Nat) (text : String) (number : Int) : Prop :=
  ∃ chars, Frames text chars ∧ IsInteger width chars number

variable {text : String} {chars : List Char} {digits : List Nat} {number : Int}
  {error : AmountError}

/-! ## Reading -/

theorem denotes_of_readText (read : readText text = .ok number) :
    Denotes digitLimit text number := by
  refine ⟨trim isBlank text.toList, frames_trim text, ?_⟩
  unfold readText at read
  dsimp only at read
  split at read
  · cases read
  · split at read
    · next behind marked =>
      obtain ⟨mark, isMark, same⟩ := afterHexMark?_eq_some_iff.1 marked
      obtain ⟨gap, row, digits, isGap, rfl, isRow, rfl⟩ :=
        readHexadecimal_eq_ok_iff.1 (Outcome.mapError_eq_ok_iff.1 read)
      rw [same]
      exact .hexadecimal isMark isGap isRow
    · obtain ⟨sign, row, digits, same, isRow, fits, isSigned⟩ :=
        readDecimal_eq_ok_iff.1 (Outcome.mapError_eq_ok_iff.1 read)
      rw [same]
      exact .decimal isSigned isRow fits

theorem readText_of_denotes (denotes : Denotes digitLimit text number) :
    readText text = .ok number := by
  obtain ⟨chars, frames, isInteger⟩ := denotes
  have trimmed := trim_of_frames frames (fun _ => isInteger.notBlank) isInteger.ne_nil
  have some_ : chars.isEmpty ≠ true := fun empty => isInteger.ne_nil (List.isEmpty_iff.1 empty)
  unfold readText
  dsimp only
  rw [trimmed, if_neg some_]
  cases isInteger with
  | hexadecimal isMark isGap isRow =>
    rw [afterHexMark?_eq_some_iff.2 ⟨_, isMark, rfl⟩]
    exact Outcome.mapError_eq_ok_iff.2 (readHexadecimal_of_isRow isGap isRow)
  | decimal isSigned isRow fits =>
    rw [afterHexMark?_of_isRow isSigned isRow]
    exact Outcome.mapError_eq_ok_iff.2
      (readDecimal_eq_ok_iff.2 ⟨_, _, _, rfl, isRow, fits, isSigned⟩)

/-- A text is read as an integer exactly if it denotes it. -/
theorem readText_eq_ok_iff : readText text = .ok number ↔ Denotes digitLimit text number :=
  ⟨denotes_of_readText, readText_of_denotes⟩

/-- Digits of base ten without a sign are read, unless they are too many. -/
theorem readText_of_isRow (frames : Frames text chars) (isRow : IsRow 10 chars digits) :
    readText text =
      if digitLimit < digits.length then .error (.tooLongToRead digits.length)
      else .ok (rowValue 10 digits : Int) := by
  have trimmed := trim_of_frames frames (fun _ => isRow.notBlank) isRow.ne_nil
  have some_ : chars.isEmpty ≠ true := fun empty => isRow.ne_nil (List.isEmpty_iff.1 empty)
  have unmarked : afterHexMark? chars = none :=
    afterHexMark?_of_isRow (@IsSigned.unsigned (rowValue 10 digits)) isRow
  unfold readText
  dsimp only
  rw [trimmed, if_neg some_, unmarked]
  dsimp only
  rw [readDecimal_unsigned isRow, readDigits_of_isRow isRow]
  split
  · rfl
  · rfl

theorem kind_of_readText (refused : readText text = .error error) :
    error.kind = .invalidValue := by
  unfold readText at refused
  dsimp only at refused
  split at refused
  · obtain rfl := Except.error.inj refused
    rfl
  · split at refused
    · obtain ⟨cause, _, rfl⟩ := Outcome.mapError_eq_error_iff.1 refused
      cases cause <;> rfl
    · obtain ⟨cause, _, rfl⟩ := Outcome.mapError_eq_error_iff.1 refused
      cases cause <;> rfl

/-! ## Decoding -/

/-- The value that is refused for its sign is below zero, and any other is kept. -/
theorem natural_eq_ok_iff {number : Nat} {held : Int} : natural held = .ok number ↔ held = number := by
  unfold natural
  split
  · next below =>
    constructor
    · intro decoded
      cases decoded
    · intro same
      omega
  · next kept =>
    rw [Except.ok.injEq]
    omega

theorem kind_of_natural (refused : natural number = .error error) : error.kind = .invalidValue := by
  unfold natural at refused
  split at refused
  · obtain rfl := Except.error.inj refused
    rfl
  · cases refused

theorem decode_text_eq (text : String) : decode (.text text) = readText text >>= natural := by
  rw [decode.eq_4 _ (fun _ => Raw.noConfusion) (fun _ => Raw.noConfusion)
    (fun _ => Raw.noConfusion)]
  rfl

theorem decode_text_eq_ok_iff {number : Nat} : decode (.text text) = .ok number ↔
    Denotes digitLimit text number := by
  rw [decode_text_eq, Outcome.bind_eq_ok_iff, ← readText_eq_ok_iff]
  constructor
  · rintro ⟨held, read, kept⟩
    rw [read, natural_eq_ok_iff.1 kept]
  · intro read
    exact ⟨number, read, natural_eq_ok_iff.2 rfl⟩

theorem kind_of_decode_text (refused : decode (.text text) = .error error) :
    error.kind = .invalidValue := by
  rw [decode_text_eq] at refused
  rcases Outcome.bind_eq_error_iff.1 refused with unread | ⟨_, _, negative⟩
  · exact kind_of_readText unread
  · exact kind_of_natural negative

/-- A text is read as the amount that it denotes, and refused as a value that is not acceptable if it
denotes none: a negative integer, or no integer at all. -/
theorem decode_text (text : String) :
    (∀ number : Nat, decode (.text text) = .ok number ↔ Denotes digitLimit text number) ∧
    ((∃ error, decode (.text text) = .error error ∧ error.kind = .invalidValue) ↔
      ∀ number : Nat, ¬ Denotes digitLimit text number) := by
  refine ⟨fun number => decode_text_eq_ok_iff, ?_⟩
  constructor
  · rintro ⟨error, refused, _⟩ number denotes
    rw [decode_text_eq_ok_iff.2 denotes] at refused
    cases refused
  · intro none_
    cases outcome : decode (.text text) with
    | ok number => exact absurd (decode_text_eq_ok_iff.1 outcome) (none_ number)
    | error error => exact ⟨error, rfl, kind_of_decode_text outcome⟩

-- digits of two scripts, and a mark of base sixteen behind a sign
example : (readText "\u2003+١_2\n").toOption = some 12 := by decide +kernel
example : (readText "+0x12").toOption = none := by decide +kernel

end HyperbolicAuction.Amount
