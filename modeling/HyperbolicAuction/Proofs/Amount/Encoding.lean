import HyperbolicAuction.Proofs.Amount.Text
import HyperbolicAuction.Proofs.Binary64.Arithmetic
import HyperbolicAuction.Proofs.Decimal.Whole
import HyperbolicAuction.Proofs.Text.Integer

/-!
# Encodings of an amount

An amount is encoded by a scalar, by scalars for its two limbs, or by a wrapper of another encoding,
to any depth. Decoding undoes each of these. `Encodes` is the grammar; the two limbs may be scalars
of different kinds.

What decoding returns in turn is the one integer that a value holds (`Holds`), so no value that
holds a negative integer is decoded. Only digits in base ten are limited in number, leading zeros
included: `decode_error_of_tooLong` refuses what is beyond the limit.

Main statements: `decode_encoding`, and `decode_fails_at_long_zero`, a zero in more digits than are
read.
-/

namespace HyperbolicAuction.Amount

open Binary64 Text

attribute [local irreducible] overflowLimit unitsPerOne digitLimit

/-! ## The grammar -/

/-- A scalar that stands for an amount. A text in base ten has at most `width` digits. -/
inductive EncodesScalar (width : Nat) : Raw → Nat → Prop
  | int (number : Nat) : EncodesScalar width (.int number) number
  | decimalText {text : String} {chars : List Char} {number : Nat} (frames : Frames text chars)
      (spells : Spells 10 number chars) (short : chars.length ≤ width) :
      EncodesScalar width (.text text) number
  | hexText {text : String} {mark : Char} {chars : List Char} {number : Nat}
      (frames : Frames text ('0' :: mark :: chars)) (isMark : mark = 'x' ∨ mark = 'X')
      (spells : Spells 16 number chars) : EncodesScalar width (.text text) number
  | decimal {negative : Bool} {coefficient : Nat} {exponent : Int} {number : Nat}
      (exactly : Decimal.rational negative coefficient exponent = number) :
      EncodesScalar width (.decimal (.finite negative coefficient exponent)) number
  | float {value : Binary64} {number : Nat} (isFinite : value.isFinite = true)
      (exactly : value.position = number * unitsPerOne) : EncodesScalar width (.float value) number

/-- A value that has a low and a high limb. -/
inductive HasLimbs : Raw → Raw → Raw → Prop
  | mapping {entries : List (String × Raw)} {low high : Raw} (hasLow : entries.lookup "low" = some low)
      (hasHigh : entries.lookup "high" = some high) : HasLimbs (.mapping entries) low high
  | list (low high : Raw) (rest : List Raw) : HasLimbs (.list (low :: high :: rest)) low high
  | tuple (low high : Raw) (rest : List Raw) : HasLimbs (.tuple (low :: high :: rest)) low high

/-- The entries of a wrapper: there are no two limbs, and of the keys that may hold the amount the
first that is not null holds a value. -/
structure Wraps (entries : List (String × Raw)) (inner : Raw) : Prop where
  noLimbs : entries.lookup "low" = none ∨ entries.lookup "high" = none
  first : ∃ earlier key later, wrapperKeys = earlier ++ key :: later ∧
    entries.lookup key = some inner ∧ inner.isNull = false ∧
    ∀ other ∈ earlier, ∀ value, entries.lookup other = some value → value.isNull = true

/-- A value that stands for an amount. -/
inductive Encodes (width : Nat) : Raw → Nat → Prop
  | scalar {value : Raw} {number : Nat} (encodes : EncodesScalar width value number) :
      Encodes width value number
  | limbs {value low high : Raw} {number : Nat} (hasLimbs : HasLimbs value low high)
      (lowLimb : EncodesScalar width low (number % limbWeight))
      (highLimb : EncodesScalar width high (number / limbWeight)) : Encodes width value number
  | wrapper {entries : List (String × Raw)} {inner : Raw} {number : Nat}
      (wraps : Wraps entries inner) (encodes : Encodes width inner number) :
      Encodes width (.mapping entries) number

/-- The integer that a value holds, whatever its sign. -/
inductive Holds : Raw → Int → Prop
  | scalar {value : Raw} {number : Int} (read : readScalar value = .ok number) : Holds value number
  | limbs {value low high : Raw} {lowLimb highLimb : Int} (hasLimbs : HasLimbs value low high)
      (lowRead : readScalar low = .ok lowLimb) (highRead : readScalar high = .ok highLimb) :
      Holds value (lowLimb + highLimb * limbWeight)
  | wrapper {entries : List (String × Raw)} {inner : Raw} {number : Int}
      (wraps : Wraps entries inner) (holds : Holds inner number) : Holds (.mapping entries) number

variable {value low high inner : Raw} {entries : List (String × Raw)} {text : String}
  {chars : List Char} {mark : Char} {number : Nat}

/-! ## Texts -/

/-- Digits in base ten are read, unless they are too many. -/
theorem readText_decimal (frames : Frames text chars) (spells : Spells 10 number chars) :
    readText text =
      if digitLimit < chars.length then .error (.tooLongToRead chars.length)
      else .ok (number : Int) := by
  obtain ⟨digits, isRow, length, rfl⟩ := spells.exists_isRow (by decide) (by decide)
  rw [readText_of_isRow frames isRow, length]

/-- Digits in base sixteen are read, however many. -/
theorem readText_hexadecimal (frames : Frames text ('0' :: mark :: chars))
    (isMark : mark = 'x' ∨ mark = 'X') (spells : Spells 16 number chars) :
    readText text = .ok (number : Int) := by
  obtain ⟨digits, isRow, _, rfl⟩ := spells.exists_isRow (by decide) (by decide)
  exact readText_of_denotes ⟨_, frames, .hexadecimal isMark (.inl rfl) isRow⟩

/-! ## Scalars -/

/-- A scalar that stands for an amount is read as it. -/
theorem readScalar_of_encodesScalar (encodes : EncodesScalar digitLimit value number) :
    readScalar value = .ok (number : Int) := by
  cases encodes with
  | int => rfl
  | decimalText frames spells short =>
    rw [readScalar, readText_decimal frames spells, if_neg (Nat.not_lt.2 short)]
  | hexText frames isMark spells =>
    rw [readScalar, readText_hexadecimal frames isMark spells]
  | @decimal negative coefficient exponent _ exactly =>
    obtain ⟨whole, truncated⟩ := Decimal.truncate_of_rational exactly
    rw [readScalar, if_pos whole, truncated]
  | float isFinite exactly =>
    rw [readScalar, toInt?_eq isFinite exactly]

/-! ## Limbs and wrappers -/

theorem decode_of_hasLimbs (limbs : HasLimbs value low high) :
    decode value = joinLimbs low high := by
  cases limbs with
  | mapping hasLow hasHigh =>
    rw [decode]
    simp only [hasLow, hasHigh]
  | list low high rest =>
    rw [decode]
    rfl
  | tuple low high rest =>
    rw [decode]
    rfl

theorem wrapped?_eq_some_iff : wrapped? entries = some inner ↔
    ∃ earlier key later, wrapperKeys = earlier ++ key :: later ∧
      entries.lookup key = some inner ∧ inner.isNull = false ∧
      ∀ other ∈ earlier, ∀ value, entries.lookup other = some value → value.isNull = true := by
  unfold wrapped?
  rw [List.findSome?_eq_some_iff]
  simp [Option.filter_eq_some_iff, Option.filter_eq_none_iff, and_assoc]

/-- A mapping without two limbs wraps what is found in it. -/
theorem wraps_of_found (found : wrapped? entries = some inner)
    (apart : ∀ low high, entries.lookup "low" = some low → entries.lookup "high" = some high →
      False) : Wraps entries inner := by
  refine ⟨?_, wrapped?_eq_some_iff.1 found⟩
  cases hasLow : entries.lookup "low" with
  | none => exact .inl rfl
  | some low =>
    cases hasHigh : entries.lookup "high" with
    | none => exact .inr rfl
    | some high => exact (apart low high hasLow hasHigh).elim

theorem decode_of_wraps (wraps : Wraps entries inner) :
    decode (.mapping entries) = decode inner := by
  have found := wrapped?_eq_some_iff.2 wraps.first
  rw [decode]
  split
  · next hasLow hasHigh =>
    rcases wraps.noLimbs with noLow | noHigh
    · rw [noLow] at hasLow
      cases hasLow
    · rw [noHigh] at hasHigh
      cases hasHigh
  · split
    · next held =>
      rw [found] at held
      cases held
      rfl
    · next none_ =>
      rw [found] at none_
      cases none_

/-- Limbs are joined if both are read, and neither is below zero. -/
theorem joinLimbs_eq_ok_iff : joinLimbs low high = .ok number ↔
    ∃ lowLimb highLimb : Nat, readScalar low = .ok (lowLimb : Int) ∧
      readScalar high = .ok (highLimb : Int) ∧ number = lowLimb + highLimb * limbWeight := by
  unfold joinLimbs
  constructor
  · intro joined
    obtain ⟨lowLimb, lowRead, joined⟩ := Outcome.bind_eq_ok_iff.1 joined
    obtain ⟨highLimb, highRead, joined⟩ := Outcome.bind_eq_ok_iff.1 joined
    split at joined
    · cases joined
    · next kept =>
      cases joined
      refine ⟨lowLimb.toNat, highLimb.toNat, ?_, ?_, rfl⟩
      · rw [lowRead, Int.toNat_of_nonneg (by omega)]
      · rw [highRead, Int.toNat_of_nonneg (by omega)]
  · rintro ⟨lowLimb, highLimb, lowRead, highRead, rfl⟩
    have kept : ¬ ((lowLimb : Int) < 0 ∨ (highLimb : Int) < 0) := by omega
    rw [lowRead, highRead, Outcome.ok_do, Outcome.ok_do, if_neg kept, Int.toNat_natCast,
      Int.toNat_natCast]
    rfl

/-- What is read as a scalar has no limbs and wraps nothing. -/
theorem decode_of_readScalar {held : Int} (read : readScalar value = .ok held) :
    decode value = natural held := by
  have notMapping (entries : List (String × Raw)) (same : value = .mapping entries) : False := by
    rw [same] at read
    cases read
  have notList (items : List Raw) (same : value = .list items) : False := by
    rw [same] at read
    cases read
  have notTuple (items : List Raw) (same : value = .tuple items) : False := by
    rw [same] at read
    cases read
  rw [decode.eq_4 value notMapping notList notTuple, read]
  rfl

/-! ## Decoding -/

/-- The ways in which a value is decoded: by its limbs, by what it wraps, or as a scalar. A container
that has neither limbs nor anything to wrap is refused. -/
theorem decode_induction {motive : Raw → Prop}
    (limbs : ∀ value low high, HasLimbs value low high → motive value)
    (wrapper : ∀ entries inner, Wraps entries inner → motive inner → motive (.mapping entries))
    (bare : ∀ value error, decode value = .error error → error.kind = .invalidValue → motive value)
    (scalar : ∀ value, decode value = readScalar value >>= natural → motive value)
    (value : Raw) : motive value := by
  induction value using decode.induct with
  | case1 entries low high hasHigh hasLow => exact limbs _ low high (.mapping hasLow hasHigh)
  | case2 entries inner found _ apart ih =>
    exact wrapper entries inner (wraps_of_found found apart) ih
  | case3 entries nothing apart =>
    refine bare _ (.unsupportedMapping entries) ?_ rfl
    rw [decode]
    split
    · next hasLow hasHigh => exact (apart _ _ hasLow hasHigh).elim
    · split
      · next found =>
        rw [nothing] at found
        cases found
      · rfl
  | case4 items =>
    rcases items with _ | ⟨low, _ | ⟨high, rest⟩⟩
    · exact bare _ _ (by rw [decode]; rfl) rfl
    · exact bare _ _ (by rw [decode]; rfl) rfl
    · exact limbs _ low high (.list low high rest)
  | case5 items =>
    rcases items with _ | ⟨low, _ | ⟨high, rest⟩⟩
    · exact bare _ _ (by rw [decode]; rfl) rfl
    · exact bare _ _ (by rw [decode]; rfl) rfl
    · exact limbs _ low high (.tuple low high rest)
  | case6 value notMapping notList notTuple =>
    exact scalar value (decode.eq_4 value notMapping notList notTuple)

theorem decode_of_encodes (encodes : Encodes digitLimit value number) :
    decode value = .ok number := by
  induction encodes with
  | scalar encodes =>
    rw [decode_of_readScalar (readScalar_of_encodesScalar encodes), natural_eq_ok_iff]
  | limbs hasLimbs lowLimb highLimb =>
    rw [decode_of_hasLimbs hasLimbs, joinLimbs_eq_ok_iff]
    exact ⟨_, _, readScalar_of_encodesScalar lowLimb, readScalar_of_encodesScalar highLimb,
      (Nat.mod_add_div' _ _).symm⟩
  | wrapper wraps _ ih => rw [decode_of_wraps wraps, ih]

/-- A value that is decoded holds no other integer than its amount. -/
theorem eq_of_holds {held : Int} (holds : Holds value held) (decoded : decode value = .ok number) :
    held = number := by
  induction holds with
  | scalar read => rwa [decode_of_readScalar read, natural_eq_ok_iff] at decoded
  | limbs hasLimbs lowRead highRead =>
    rw [decode_of_hasLimbs hasLimbs, joinLimbs_eq_ok_iff] at decoded
    obtain ⟨lowLimb, highLimb, lowReadToo, highReadToo, rfl⟩ := decoded
    rw [lowRead] at lowReadToo
    rw [highRead] at highReadToo
    cases lowReadToo
    cases highReadToo
    push_cast
    rfl
  | wrapper wraps _ ih =>
    rw [decode_of_wraps wraps] at decoded
    exact ih decoded

theorem holds_of_joinLimbs (hasLimbs : HasLimbs value low high)
    (joined : joinLimbs low high = .ok number) : Holds value (number : Int) := by
  obtain ⟨lowLimb, highLimb, lowRead, highRead, rfl⟩ := joinLimbs_eq_ok_iff.1 joined
  have holds := Holds.limbs hasLimbs lowRead highRead
  exact_mod_cast holds

/-- A value that is decoded holds its amount. -/
theorem holds_of_decode (decoded : decode value = .ok number) : Holds value (number : Int) := by
  induction value using decode_induction with
  | limbs value low high hasLimbs =>
    rw [decode_of_hasLimbs hasLimbs] at decoded
    exact holds_of_joinLimbs hasLimbs decoded
  | wrapper entries inner wraps ih =>
    rw [decode_of_wraps wraps] at decoded
    exact .wrapper wraps (ih decoded)
  | bare value error refused =>
    rw [refused] at decoded
    cases decoded
  | scalar value decodes =>
    rw [decodes] at decoded
    obtain ⟨held, read, kept⟩ := Outcome.bind_eq_ok_iff.1 decoded
    rw [natural_eq_ok_iff.1 kept] at read
    exact .scalar read

/-- More digits in base ten than are read are refused, zeros before the number included. -/
theorem decode_error_of_tooLong (frames : Frames text chars) (spells : Spells 10 number chars)
    (tooLong : digitLimit < chars.length) :
    decode (.text text) = .error (.tooLongToRead chars.length) := by
  have refused : readScalar (.text text) = .error (.tooLongToRead chars.length) := by
    rw [readScalar, readText_decimal frames spells, if_pos tooLong]
  rw [decode.eq_4 _ (fun _ => Raw.noConfusion) (fun _ => Raw.noConfusion)
    (fun _ => Raw.noConfusion), refused]
  rfl

/-- An encoding is decoded to its amount, and what is decoded is the one integer that a value holds,
so that integer is not negative. -/
theorem decode_encoding (value : Raw) (number : Nat) :
    (Encodes digitLimit value number → decode value = .ok number) ∧
    (decode value = .ok number →
      Holds value (number : Int) ∧ ∀ held, Holds value held → held = number) := by
  refine ⟨decode_of_encodes, fun decoded => ⟨holds_of_decode decoded, ?_⟩⟩
  intro held holds
  exact eq_of_holds holds decoded

/-- Seven and a high limb of thirty-one, in a wrapper of a wrapper. -/
def wrappedLimbs : Raw :=
  .mapping [("low", .text "5"), ("raw", .null), ("value", .mapping [("dec", .mapping
    [("low", .text " 007\n"), ("high", .text "0X1f"), ("unit", .null)])])]

theorem decode_encoding_wrapped : ∃ number : Nat, number = 7 + 31 * limbWeight ∧
    Encodes digitLimit wrappedLimbs number ∧ decode wrappedLimbs = .ok number ∧
    Holds wrappedLimbs (number : Int) := by
  have limbs : (7 + 31 * limbWeight) % limbWeight = 7 ∧ (7 + 31 * limbWeight) / limbWeight = 31 := by
    decide +kernel
  have lowLimb : EncodesScalar digitLimit (.text " 007\n") 7 :=
    .decimalText ⟨[' '], ['\n'], by decide +kernel, List.all_eq_true.1 rfl⟩
      (show Spells 10 7 ['0', '0', '7'] from ⟨2, by decide +kernel⟩) (by decide +kernel)
  have highLimb : EncodesScalar digitLimit (.text "0X1f") 31 :=
    .hexText ⟨[], [], by decide +kernel, List.all_eq_true.1 rfl⟩ (.inr rfl)
      (show Spells 16 31 ['1', 'f'] from ⟨0, by decide +kernel⟩)
  have held : Encodes digitLimit (.mapping
      [("low", .text " 007\n"), ("high", .text "0X1f"), ("unit", .null)])
      (7 + 31 * limbWeight) := by
    refine .limbs (.mapping rfl rfl) ?_ ?_
    · rwa [limbs.1]
    · rwa [limbs.2]
  have encodes : Encodes digitLimit wrappedLimbs (7 + 31 * limbWeight) := by
    refine .wrapper ⟨.inr rfl, ["raw"], "value", ["dec"], rfl, rfl, rfl, ?_⟩
      (.wrapper ⟨.inl rfl, ["raw", "value"], "dec", [], rfl, rfl, rfl, ?_⟩ held)
    · intro other mem value found
      rw [List.mem_singleton.1 mem] at found
      cases found
      rfl
    · intro other mem value found
      rcases List.mem_cons.1 mem with rfl | mem
      · cases found
      · rw [List.mem_singleton.1 mem] at found
        cases found
  have decoded := (decode_encoding wrappedLimbs _).1 encodes
  exact ⟨_, rfl, encodes, decoded, ((decode_encoding wrappedLimbs _).2 decoded).1⟩

/-- One zero more than there are digits to be read. -/
def longZero : Raw := .text (String.ofList (List.replicate 4301 '0'))

theorem decode_fails_at_long_zero :
    Encodes 4301 longZero 0 ∧ decode longZero = .error (.tooLongToRead 4301) := by
  have frames : Frames (String.ofList (List.replicate 4301 '0')) (List.replicate 4301 '0') := by
    refine ⟨[], [], ?_, ?_⟩
    · rw [String.toList_ofList, List.nil_append, List.append_nil]
    · intro c mem
      cases mem
  have spells : Spells 10 0 (List.replicate 4301 '0') := by
    refine ⟨4300, ?_⟩
    rw [List.map_replicate, List.replicate_succ']
    rfl
  have length : (List.replicate 4301 '0').length = 4301 := List.length_replicate
  refine ⟨.scalar (.decimalText frames spells (Nat.le_of_eq length)), ?_⟩
  have refused := decode_error_of_tooLong frames spells (by rw [length]; decide +kernel)
  rwa [length] at refused

end HyperbolicAuction.Amount
