import HyperbolicAuction.Proofs.Outcome
import HyperbolicAuction.Text.Integer
import Mathlib.Data.List.Basic
import Mathlib.Data.List.TakeWhile
import Mathlib.Data.Nat.Digits.Defs

/-!
# Which texts are integers

`IsInteger` says which rows of characters are integers in writing, and which integers, without
mention of how they are read. Every decimal digit of every script is a digit, whatever other scripts
the digits beside it are of.

`Frames` says which texts hold a row of characters between blanks.

Main statements: `digits?_eq_some_iff`, `readHexadecimal_eq_ok_iff`, `readDecimal_eq_ok_iff`,
`trim_of_frames`, and `frames_trim`.
-/

namespace HyperbolicAuction.Text

/-- A character is a digit: it stands in the row of ten from the zero of a script on, or is one of
the first six letters. -/
inductive IsDigit (c : Char) : Nat → Prop
  | decimal {first place : Nat} (script : first ∈ decimalZeros) (below : place < 10)
      (code : c.toNat = first + place) : IsDigit c place
  | small {place : Nat} (below : place < 6) (code : c.toNat = 'a'.toNat + place) :
      IsDigit c (place + 10)
  | capital {place : Nat} (below : place < 6) (code : c.toNat = 'A'.toNat + place) :
      IsDigit c (place + 10)

/-- Digits of a base, at least one, and no more than one underscore between two of them. -/
inductive IsRow (base : Nat) : List Char → List Nat → Prop
  | single {c : Char} {digit : Nat} (isDigit : IsDigit c digit) (below : digit < base) :
      IsRow base [c] [digit]
  | next {c : Char} {digit : Nat} {chars : List Char} {digits : List Nat}
      (isDigit : IsDigit c digit) (below : digit < base) (rest : IsRow base chars digits) :
      IsRow base (c :: chars) (digit :: digits)
  | spaced {c : Char} {digit : Nat} {chars : List Char} {digits : List Nat}
      (isDigit : IsDigit c digit) (below : digit < base) (rest : IsRow base chars digits) :
      IsRow base (c :: '_' :: chars) (digit :: digits)

/-- What a sign makes of a number. -/
inductive IsSigned (number : Nat) : List Char → Int → Prop
  | unsigned : IsSigned number [] number
  | plus : IsSigned number ['+'] number
  | minus : IsSigned number ['-'] (-number)

/-- The first digit of a row weighs most. -/
def rowValue (base : Nat) (digits : List Nat) : Nat := Nat.ofDigits base digits.reverse

/-- What may stand between the mark of base sixteen and the digits. -/
def IsGap (gap : List Char) : Prop := gap = [] ∨ gap = ['_']

/-- Characters are an integer in writing, of so many decimal digits at most. -/
inductive IsInteger (width : Nat) : List Char → Int → Prop
  | hexadecimal {mark : Char} {gap row : List Char} {digits : List Nat}
      (isMark : mark = 'x' ∨ mark = 'X') (isGap : IsGap gap) (isRow : IsRow 16 row digits) :
      IsInteger width ('0' :: mark :: (gap ++ row)) (rowValue 16 digits)
  | decimal {sign row : List Char} {digits : List Nat} {number : Int}
      (isSigned : IsSigned (rowValue 10 digits) sign number) (isRow : IsRow 10 row digits)
      (fits : digits.length ≤ width) : IsInteger width (sign ++ row) number

/-- A text holds a row of characters, and blanks around it. -/
def Frames (text : String) (chars : List Char) : Prop :=
  ∃ before after, text.toList = before ++ chars ++ after ∧ ∀ c ∈ before ++ after, isBlank c = true

variable {base digit width : Nat} {number : Int} {c : Char} {chars sign : List Char}
  {digits : List Nat}

/-! ## One digit -/

theorem decimalDigit?_eq_some_iff : decimalDigit? c = some digit ↔
    ∃ first ∈ decimalZeros, digit < 10 ∧ c.toNat = first + digit := by
  constructor
  · intro read
    have below := decimalDigit?_lt read
    simp only [decimalDigit?, Option.map_eq_some_iff] at read
    obtain ⟨first, found, rfl⟩ := read
    have within := List.find?_some found
    simp only [Bool.and_eq_true, decide_eq_true_eq] at within
    exact ⟨first, List.mem_of_find?_eq_some found, below, by omega⟩
  · rintro ⟨first, script, below, code⟩
    have apart : ∀ one ∈ decimalZeros, ∀ other ∈ decimalZeros,
        one = other ∨ one + 10 ≤ other ∨ other + 10 ≤ one := by
      decide +kernel
    have exists_ : (decimalZeros.find? fun first =>
        first ≤ c.toNat && c.toNat < first + 10).isSome = true := by
      refine List.find?_isSome.2 ⟨first, script, ?_⟩
      simp only [Bool.and_eq_true, decide_eq_true_eq]
      omega
    obtain ⟨met, found⟩ := Option.isSome_iff_exists.1 exists_
    have within := List.find?_some found
    simp only [Bool.and_eq_true, decide_eq_true_eq] at within
    have same := apart first script met (List.mem_of_find?_eq_some found)
    rw [decimalDigit?, found, Option.map_some, Option.some.injEq]
    omega

theorem letterDigit?_eq_some_iff : letterDigit? c = some digit ↔
    ∃ place < 6, digit = place + 10 ∧
      (c.toNat = 'a'.toNat + place ∨ c.toNat = 'A'.toNat + place) := by
  have smallA : 'a'.toNat = 97 := rfl
  have capitalA : 'A'.toNat = 65 := rfl
  have lowers : 'a' ≤ c ∧ c ≤ 'f' ↔ 97 ≤ c.toNat ∧ c.toNat ≤ 102 := Iff.rfl
  have capitals : 'A' ≤ c ∧ c ≤ 'F' ↔ 65 ≤ c.toNat ∧ c.toNat ≤ 70 := Iff.rfl
  unfold letterDigit?
  rw [smallA, capitalA]
  constructor
  · intro read
    split at read
    · next isLower =>
      have own := lowers.1 isLower
      obtain rfl := Option.some.inj read
      exact ⟨c.toNat - 97, by omega, by omega, .inl (by omega)⟩
    · split at read
      · next isCapital =>
        have own := capitals.1 isCapital
        obtain rfl := Option.some.inj read
        exact ⟨c.toNat - 65, by omega, by omega, .inr (by omega)⟩
      · cases read
  · rintro ⟨place, below, rfl, code | code⟩
    · rw [if_pos (lowers.2 ⟨by omega, by omega⟩), code]
      rw [Nat.add_sub_cancel_left]
    · rw [if_neg fun isLower => absurd (lowers.1 isLower).1 (by omega),
        if_pos (capitals.2 ⟨by omega, by omega⟩), code]
      rw [Nat.add_sub_cancel_left]

theorem isDigit_iff : (decimalDigit? c).or (letterDigit? c) = some digit ↔ IsDigit c digit := by
  rw [Option.or_eq_some_iff, decimalDigit?_eq_some_iff, letterDigit?_eq_some_iff]
  constructor
  · rintro (⟨first, script, below, code⟩ | ⟨_, place, below, rfl, code | code⟩)
    · exact .decimal script below code
    · exact .small below code
    · exact .capital below code
  · -- no letter stands in the row of a script
    have apart : ∀ first ∈ decimalZeros, first + 10 ≤ 'A'.toNat ∨ 'f'.toNat < first := by
      decide +kernel
    have noDecimal {place : Nat} (below : place < 6)
        (code : c.toNat = 'a'.toNat + place ∨ c.toNat = 'A'.toNat + place) :
        decimalDigit? c = none := by
      refine Option.eq_none_iff_forall_ne_some.2 fun other read => ?_
      obtain ⟨first, script, otherBelow, otherCode⟩ := decimalDigit?_eq_some_iff.1 read
      have order : 'A'.toNat + 32 = 'a'.toNat ∧ 'f'.toNat = 'a'.toNat + 5 := ⟨rfl, rfl⟩
      have sides := apart first script
      omega
    rintro (⟨script, below, code⟩ | ⟨below, code⟩ | ⟨below, code⟩)
    · exact .inl ⟨_, script, below, code⟩
    · exact .inr ⟨noDecimal below (.inl code), _, below, rfl, .inl code⟩
    · exact .inr ⟨noDecimal below (.inr code), _, below, rfl, .inr code⟩

theorem digit?_eq_some_iff : digit? base c = some digit ↔ IsDigit c digit ∧ digit < base := by
  rw [digit?, Option.filter_eq_some_iff, isDigit_iff, decide_eq_true_eq]

/-- An underscore is read as no digit. -/
theorem unread_underscore : (decimalDigit? '_').or (letterDigit? '_') = none := by
  decide +kernel

namespace IsDigit

theorem isDecimal (isDigit : IsDigit c digit) (below : digit < 10) :
    (decimalDigit? c).isSome = true := by
  cases isDigit with
  | decimal script _ code =>
    rw [decimalDigit?_eq_some_iff.2 ⟨_, script, below, code⟩]
    rfl
  | small => omega
  | capital => omega

/-- A character that is read as no digit is none. -/
theorem ne_of_unread {other : Char} (isDigit : IsDigit c digit)
    (unread : (decimalDigit? other).or (letterDigit? other) = none) : c ≠ other := by
  rintro rfl
  rw [isDigit_iff.2 isDigit] at unread
  cases unread

theorem notBlank (isDigit : IsDigit c digit) : isBlank c = false := by
  have scripts : ∀ first ∈ decimalZeros, ∀ place < 10,
      isBlank (Char.ofNat (first + place)) = false := by
    decide +kernel
  have letters : ∀ place < 6, isBlank (Char.ofNat ('a'.toNat + place)) = false ∧
      isBlank (Char.ofNat ('A'.toNat + place)) = false := by
    decide +kernel
  rw [← Char.ofNat_toNat c]
  cases isDigit with
  | decimal script below code =>
    rw [code]
    exact scripts _ script _ below
  | small below code =>
    rw [code]
    exact (letters _ below).1
  | capital below code =>
    rw [code]
    exact (letters _ below).2

end IsDigit

/-! ## Rows of digits -/

namespace IsRow

/-- The first character of a row is a digit. -/
theorem exists_cons (isRow : IsRow base chars digits) :
    ∃ c rest digit, chars = c :: rest ∧ IsDigit c digit ∧ digit < base := by
  cases isRow with
  | single isDigit below => exact ⟨_, _, _, rfl, isDigit, below⟩
  | next isDigit below _ => exact ⟨_, _, _, rfl, isDigit, below⟩
  | spaced isDigit below _ => exact ⟨_, _, _, rfl, isDigit, below⟩

theorem ne_nil (isRow : IsRow base chars digits) : chars ≠ [] := by
  obtain ⟨c, rest, _, rfl, _⟩ := isRow.exists_cons
  exact List.cons_ne_nil c rest

/-- A row begins with no character that is read as no digit. -/
theorem ne_cons {other : Char} (isRow : IsRow base chars digits)
    (unread : (decimalDigit? other).or (letterDigit? other) = none) (rest : List Char) :
    chars ≠ other :: rest := by
  obtain ⟨c, _, _, rfl, isDigit, _⟩ := isRow.exists_cons
  exact fun same => isDigit.ne_of_unread unread (List.cons.inj same).1

/-- A character of a row is an underscore or a digit. -/
theorem cases_mem (isRow : IsRow base chars digits) (mem : c ∈ chars) :
    c = '_' ∨ ∃ digit, IsDigit c digit ∧ digit < base := by
  induction isRow with
  | single isDigit below =>
    rw [List.mem_singleton.1 mem]
    exact .inr ⟨_, isDigit, below⟩
  | next isDigit below _ ih =>
    rcases List.mem_cons.1 mem with rfl | inRest
    · exact .inr ⟨_, isDigit, below⟩
    · exact ih inRest
  | spaced isDigit below _ ih =>
    rcases List.mem_cons.1 mem with rfl | behind
    · exact .inr ⟨_, isDigit, below⟩
    · rcases List.mem_cons.1 behind with rfl | inRest
      · exact .inl rfl
      · exact ih inRest

theorem notBlank (isRow : IsRow base chars digits) (mem : c ∈ chars) : isBlank c = false := by
  rcases isRow.cases_mem mem with rfl | ⟨digit, isDigit, _⟩
  · decide +kernel
  · exact isDigit.notBlank

theorem digits?_eq (isRow : IsRow base chars digits) : digits? base chars = some digits := by
  induction isRow with
  | single isDigit below =>
    rw [digits?.eq_2, digit?_eq_some_iff.2 ⟨isDigit, below⟩]
    rfl
  | next isDigit below rest ih =>
    rw [digits?.eq_4 _ _ _ rest.ne_nil (rest.ne_cons unread_underscore),
      digit?_eq_some_iff.2 ⟨isDigit, below⟩, ih]
    rfl
  | spaced isDigit below _ ih =>
    rw [digits?.eq_3, digit?_eq_some_iff.2 ⟨isDigit, below⟩, ih]
    rfl

end IsRow

theorem isRow_of_digits? (read : digits? base chars = some digits) : IsRow base chars digits := by
  induction chars using digits?.induct generalizing digits with
  | case1 =>
    rw [digits?.eq_1] at read
    cases read
  | case2 c =>
    rw [digits?.eq_2, Option.map_eq_some_iff] at read
    obtain ⟨digit, own, rfl⟩ := read
    obtain ⟨isDigit, below⟩ := digit?_eq_some_iff.1 own
    exact .single isDigit below
  | case3 c rest ih =>
    simp only [digits?.eq_3, Option.bind_eq_bind, Option.bind_eq_some_iff, Option.pure_def,
      Option.some.injEq] at read
    obtain ⟨digit, own, others, restRead, rfl⟩ := read
    obtain ⟨isDigit, below⟩ := digit?_eq_some_iff.1 own
    exact .spaced isDigit below (ih restRead)
  | case4 c rest more apart ih =>
    simp only [digits?.eq_4 _ _ _ more apart, Option.bind_eq_bind, Option.bind_eq_some_iff,
      Option.pure_def, Option.some.injEq] at read
    obtain ⟨digit, own, others, restRead, rfl⟩ := read
    obtain ⟨isDigit, below⟩ := digit?_eq_some_iff.1 own
    exact .next isDigit below (ih restRead)

/-- Digits are read exactly from a row of them. -/
theorem digits?_eq_some_iff : digits? base chars = some digits ↔ IsRow base chars digits :=
  ⟨isRow_of_digits?, IsRow.digits?_eq⟩

theorem digitsNumber_eq_rowValue (base : Nat) (digits : List Nat) :
    digitsNumber base digits = rowValue base digits := by
  rw [digitsNumber, rowValue, Nat.ofDigits_eq_foldr, List.foldr_reverse]
  congr 1
  funext number digit
  exact Nat.add_comm _ _

/-! ## Both bases -/

theorem afterHexMark?_eq_some_iff {row : List Char} : afterHexMark? chars = some row ↔
    ∃ mark, (mark = 'x' ∨ mark = 'X') ∧ chars = '0' :: mark :: row := by
  constructor
  · intro marked
    unfold afterHexMark? at marked
    split at marked
    · obtain rfl := Option.some.inj marked
      exact ⟨'x', .inl rfl, rfl⟩
    · obtain rfl := Option.some.inj marked
      exact ⟨'X', .inr rfl, rfl⟩
    · cases marked
  · rintro ⟨mark, rfl | rfl, rfl⟩
    · rfl
    · rfl

theorem readHexadecimal_of_isRow {gap : List Char} (isGap : IsGap gap)
    (isRow : IsRow 16 chars digits) :
    readHexadecimal (gap ++ chars) = .ok (rowValue 16 digits : Int) := by
  rw [← digitsNumber_eq_rowValue]
  rcases isGap with rfl | rfl
  · rw [List.nil_append]
    unfold readHexadecimal
    split
    · next rest => exact absurd rfl (isRow.ne_cons unread_underscore rest)
    · dsimp only
      rw [isRow.digits?_eq]
  · simp only [readHexadecimal, List.cons_append, List.nil_append, isRow.digits?_eq]

theorem exists_gap (chars : List Char) : ∃ gap row, IsGap gap ∧ chars = gap ++ row ∧
    readHexadecimal chars = match digits? 16 row with
      | none => .error .malformed
      | some digits => .ok (digitsNumber 16 digits : Nat) := by
  unfold readHexadecimal
  split
  · next row => exact ⟨['_'], row, .inr rfl, rfl, rfl⟩
  · exact ⟨[], chars, .inl rfl, rfl, rfl⟩

/-- Behind the mark of base sixteen stand digits, with an underscore before them or not. -/
theorem readHexadecimal_eq_ok_iff : readHexadecimal chars = .ok number ↔
    ∃ gap row digits, IsGap gap ∧ chars = gap ++ row ∧ IsRow 16 row digits ∧
      number = rowValue 16 digits := by
  constructor
  · intro read
    obtain ⟨gap, row, isGap, split_, outcome⟩ := exists_gap chars
    rw [outcome] at read
    split at read
    · cases read
    · next digits isRead =>
      obtain rfl := Except.ok.inj read
      exact ⟨gap, row, digits, isGap, split_, isRow_of_digits? isRead,
        congrArg _ (digitsNumber_eq_rowValue 16 digits)⟩
  · rintro ⟨gap, row, digits, isGap, rfl, isRow, rfl⟩
    exact readHexadecimal_of_isRow isGap isRow

/-- Digits of base ten are read, unless they are too many. -/
theorem readDigits_of_isRow (isRow : IsRow 10 chars digits) :
    readDigits chars =
      if digitLimit < digits.length then .error (.tooLong digits.length)
      else .ok (rowValue 10 digits) := by
  have own : ∀ c ∈ chars, (c == '_' || (decimalDigit? c).isSome) = true := by
    intro c mem
    rcases isRow.cases_mem mem with rfl | ⟨digit, isDigit, below⟩
    · rfl
    · rw [isDigit.isDecimal below, Bool.or_true]
  unfold readDigits
  dsimp only
  rw [List.takeWhile_eq_self_iff.2 own, isRow.digits?_eq]
  dsimp only
  rw [List.all_eq_true.2 own, Bool.not_true, if_neg Bool.false_ne_true, digitsNumber_eq_rowValue]

theorem readDigits_eq_ok_iff {number : Nat} : readDigits chars = .ok number ↔
    ∃ digits, IsRow 10 chars digits ∧ digits.length ≤ digitLimit ∧
      number = rowValue 10 digits := by
  constructor
  · intro read
    unfold readDigits at read
    dsimp only at read
    split at read
    · cases read
    · next digits isRead =>
      split at read
      · cases read
      · next fits =>
        split at read
        · cases read
        · next all =>
          rw [Bool.not_eq_true, Bool.not_eq_false'] at all
          rw [List.takeWhile_eq_self_iff.2 (List.all_eq_true.1 all)] at isRead
          obtain rfl := Except.ok.inj read
          exact ⟨digits, isRow_of_digits? isRead, Nat.le_of_not_lt fits,
            digitsNumber_eq_rowValue 10 digits⟩
  · rintro ⟨digits, isRow, fits, rfl⟩
    rw [readDigits_of_isRow isRow, if_neg (Nat.not_lt.2 fits)]

/-- Whatever is made of the number that digits are read as. -/
theorem readDigits_bind_eq_ok_iff {view : Nat → Int} :
    (readDigits chars >>= fun value => return view value) = .ok number ↔
      ∃ digits, IsRow 10 chars digits ∧ digits.length ≤ digitLimit ∧
        view (rowValue 10 digits) = number := by
  rw [Outcome.bind_eq_ok_iff]
  constructor
  · rintro ⟨value, read, returned⟩
    obtain ⟨digits, isRow, fits, rfl⟩ := readDigits_eq_ok_iff.1 read
    exact ⟨digits, isRow, fits, Except.ok.inj returned⟩
  · rintro ⟨digits, isRow, fits, rfl⟩
    exact ⟨_, readDigits_eq_ok_iff.2 ⟨digits, isRow, fits, rfl⟩, rfl⟩

theorem readDecimal_unsigned (isRow : IsRow 10 chars digits) :
    readDecimal chars = readDigits chars >>= fun value => return (value : Int) :=
  readDecimal.eq_3 _ (isRow.ne_cons (by decide +kernel)) (isRow.ne_cons (by decide +kernel))

/-- Digits of base ten follow a sign or stand alone. -/
theorem readDecimal_eq_ok_iff : readDecimal chars = .ok number ↔
    ∃ sign row digits, chars = sign ++ row ∧ IsRow 10 row digits ∧ digits.length ≤ digitLimit ∧
      IsSigned (rowValue 10 digits) sign number := by
  constructor
  · intro read
    unfold readDecimal at read
    split at read
    · next row =>
      obtain ⟨digits, isRow, fits, rfl⟩ := readDigits_bind_eq_ok_iff.1 read
      exact ⟨['-'], row, digits, rfl, isRow, fits, .minus⟩
    · next row =>
      obtain ⟨digits, isRow, fits, rfl⟩ := readDigits_bind_eq_ok_iff.1 read
      exact ⟨['+'], row, digits, rfl, isRow, fits, .plus⟩
    · obtain ⟨digits, isRow, fits, rfl⟩ := readDigits_bind_eq_ok_iff.1 read
      exact ⟨[], chars, digits, rfl, isRow, fits, .unsigned⟩
  · rintro ⟨sign, row, digits, rfl, isRow, fits, isSigned⟩
    cases isSigned with
    | unsigned =>
      rw [List.nil_append, readDecimal_unsigned isRow]
      exact readDigits_bind_eq_ok_iff.2 ⟨digits, isRow, fits, rfl⟩
    | plus => exact readDigits_bind_eq_ok_iff.2 ⟨digits, isRow, fits, rfl⟩
    | minus => exact readDigits_bind_eq_ok_iff.2 ⟨digits, isRow, fits, rfl⟩

/-- No mark of base sixteen stands before digits of base ten, with a sign or without. -/
theorem afterHexMark?_of_isRow {value : Nat} (isSigned : IsSigned value sign number)
    (isRow : IsRow 10 chars digits) : afterHexMark? (sign ++ chars) = none := by
  have unmarked : ∀ mark, mark = 'x' ∨ mark = 'X' →
      mark ≠ '_' ∧ (decimalDigit? mark).or (letterDigit? mark) = none := by
    rintro mark (rfl | rfl) <;> decide +kernel
  refine Option.eq_none_iff_forall_ne_some.2 fun behind marked => ?_
  obtain ⟨mark, isMark, same⟩ := afterHexMark?_eq_some_iff.1 marked
  cases isSigned with
  | unsigned =>
    obtain ⟨noGap, unread⟩ := unmarked mark isMark
    rw [List.nil_append] at same
    rcases isRow.cases_mem (same ▸ List.mem_cons_of_mem _ List.mem_cons_self) with
      isGap | ⟨digit, isDigit, _⟩
    · exact noGap isGap
    · exact isDigit.ne_of_unread unread rfl
  | plus => cases (List.cons.inj same).1
  | minus => cases (List.cons.inj same).1

/-! ## Integers -/

namespace IsInteger

variable (isInteger : IsInteger width chars number)

include isInteger

theorem ne_nil : chars ≠ [] := by
  cases isInteger with
  | hexadecimal => exact List.cons_ne_nil _ _
  | decimal _ isRow => exact List.append_ne_nil_of_right_ne_nil _ isRow.ne_nil

theorem notBlank (mem : c ∈ chars) : isBlank c = false := by
  cases isInteger with
  | hexadecimal isMark isGap isRow =>
    rcases List.mem_cons.1 mem with rfl | behind
    · decide +kernel
    · rcases List.mem_cons.1 behind with rfl | behind
      · rcases isMark with rfl | rfl <;> decide +kernel
      · rcases List.mem_append.1 behind with inGap | inRow
        · rcases isGap with rfl | rfl
          · cases inGap
          · rw [List.mem_singleton.1 inGap]
            decide +kernel
        · exact isRow.notBlank inRow
  | decimal isSigned isRow =>
    rcases List.mem_append.1 mem with inSign | inRow
    · cases isSigned with
      | unsigned => cases inSign
      | plus =>
        rw [List.mem_singleton.1 inSign]
        decide +kernel
      | minus =>
        rw [List.mem_singleton.1 inSign]
        decide +kernel
    · exact isRow.notBlank inRow

end IsInteger

/-! ## Between blanks -/

theorem dropWhile_eq_self {isOuter : Char → Bool} (inner : ∀ c ∈ chars, isOuter c = false)
    (nonempty : chars ≠ []) (after : List Char) :
    (chars ++ after).dropWhile isOuter = chars ++ after := by
  obtain ⟨first, rest, rfl⟩ := List.exists_cons_of_ne_nil nonempty
  rw [List.cons_append, List.dropWhile_cons_of_neg]
  rw [inner first List.mem_cons_self]
  exact Bool.false_ne_true

/-- Trimming leaves what stands between blanks. -/
theorem trim_of_frames {text : String} (frames : Frames text chars)
    (inner : ∀ c ∈ chars, isBlank c = false) (nonempty : chars ≠ []) :
    trim isBlank text.toList = chars := by
  obtain ⟨before, after, framed, blank⟩ := frames
  have reversedInner : ∀ c ∈ chars.reverse, isBlank c = false := fun c mem =>
    inner c (List.mem_reverse.1 mem)
  have reversedAfter : ∀ c ∈ after.reverse, isBlank c = true := fun c mem =>
    blank c (List.mem_append_right _ (List.mem_reverse.1 mem))
  have reversed := dropWhile_eq_self reversedInner (List.reverse_ne_nil_iff.2 nonempty) []
  rw [List.append_nil] at reversed
  unfold trim
  rw [framed, List.append_assoc,
    List.dropWhile_append_of_pos fun c mem => blank c (List.mem_append_left _ mem),
    dropWhile_eq_self inner nonempty, List.reverse_append,
    List.dropWhile_append_of_pos reversedAfter, reversed, List.reverse_reverse]

/-- Every text holds what is left of it by trimming. -/
theorem frames_trim (text : String) : Frames text (trim isBlank text.toList) := by
  obtain ⟨begun, started⟩ : ∃ begun, begun = text.toList.dropWhile isBlank := ⟨_, rfl⟩
  refine ⟨text.toList.takeWhile isBlank, (begun.reverse.takeWhile isBlank).reverse, ?_, ?_⟩
  · have ended := congrArg List.reverse (@List.takeWhile_append_dropWhile _ isBlank begun.reverse)
    rw [List.reverse_append, List.reverse_reverse] at ended
    rw [trim, ← started, List.append_assoc, ended, started, List.takeWhile_append_dropWhile]
  · intro c mem
    rcases List.mem_append.1 mem with before | after
    · exact List.mem_takeWhile_imp before
    · exact List.mem_takeWhile_imp (List.mem_reverse.1 after)

end HyperbolicAuction.Text
