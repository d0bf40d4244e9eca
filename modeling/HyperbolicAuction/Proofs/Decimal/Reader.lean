import HyperbolicAuction.Decimal.Reader

/-!
# Reading back a placed point

A row of digits with a point placed among them is read as the number of all its digits, with an
exponent that counts the places. Neither the zeros that fill up a short row nor those that are
stripped from its beginning change the number.

Main statements: `ofNumeral?_placePoint`, `digitsValue_stripZeros`.
-/

namespace HyperbolicAuction.Decimal

variable {digits whole fraction : List Char}

/-- Rows of characters that are all digits `0` to `9`. -/
def AllDigits (digits : List Char) : Prop := ∀ c ∈ digits, c.isDigit = true

namespace AllDigits

theorem of_sublist {kept : List Char} (all : AllDigits digits) (sublist : kept.Sublist digits) :
    AllDigits kept := fun c mem => all c (sublist.subset mem)

theorem replicate_append (count : Nat) (all : AllDigits digits) :
    AllDigits (List.replicate count '0' ++ digits) := by
  intro c mem
  rcases List.mem_append.1 mem with zero | own
  · rw [(List.mem_replicate.1 zero).2]
    rfl
  · exact all c own

theorem zero : AllDigits ['0'] := replicate_append 1 (List.forall_mem_nil _)

end AllDigits

theorem allDigits_toDigits (number : Nat) : AllDigits (Nat.toDigits 10 number) :=
  fun _ mem => Nat.isDigit_of_mem_toDigits (by decide) (by decide) mem

/-! ## The value of a row -/

theorem digitsValue_eq (digits : List Char) : digitsValue digits = Nat.ofDigitChars 10 digits 0 :=
  rfl

theorem digitsValue_replicate_append (count : Nat) (digits : List Char) :
    digitsValue (List.replicate count '0' ++ digits) = digitsValue digits := by
  rw [digitsValue_eq, digitsValue_eq, Nat.ofDigitChars_append, Nat.ofDigitChars_replicate_zero,
    Nat.mul_zero]

theorem digitsValue_cons_zero (digits : List Char) :
    digitsValue ('0' :: digits) = digitsValue digits :=
  digitsValue_replicate_append 1 digits

theorem digitsValue_dropWhile (digits : List Char) :
    digitsValue (digits.dropWhile (· == '0')) = digitsValue digits := by
  induction digits with
  | nil => rfl
  | cons first rest ih =>
    rw [List.dropWhile_cons]
    split
    · next zero =>
      rw [ih, beq_iff_eq.1 zero, digitsValue_cons_zero]
    · rfl

/-- Stripping leading zeros does not change the value. -/
theorem digitsValue_stripZeros (digits : List Char) :
    digitsValue (stripZeros digits) = digitsValue digits := by
  rw [← digitsValue_dropWhile digits]
  unfold stripZeros
  split
  · next stripped =>
    rw [stripped]
    rfl
  · rfl

theorem allDigits_stripZeros (all : AllDigits digits) : AllDigits (stripZeros digits) := by
  unfold stripZeros
  split
  · exact .zero
  · exact all.of_sublist (List.dropWhile_sublist _)

theorem stripZeros_ne_nil (digits : List Char) : stripZeros digits ≠ [] := by
  unfold stripZeros
  split
  · exact List.cons_ne_nil _ _
  · next nonempty => exact nonempty

/-! ## Reading -/

theorem readSign_cons {first : Char} (digit : first.isDigit = true) (rest : List Char) :
    readSign (first :: rest) = (false, first :: rest) := by
  unfold readSign
  split
  · next same =>
    cases same
    cases digit
  · next same =>
    cases same
    cases digit
  · rfl

theorem toLower_of_isDigit {c : Char} (digit : c.isDigit = true) : c.toLower = c := by
  unfold Char.isDigit at digit
  unfold Char.toLower
  simp only [Bool.and_eq_true, decide_eq_true_eq, ge_iff_le, UInt32.le_iff_toNat_le] at digit ⊢
  rw [dif_neg]
  intro capital
  have most : c.val.toNat ≤ 57 := digit.2
  have least : 65 ≤ c.val.toNat := capital.1
  omega

/-- A row that begins with a digit is no word. -/
theorem not_word_of_isDigit {first : Char} (digit : first.isDigit = true) (rest : List Char) :
    infinityWords.contains (String.ofList ((first :: rest).map Char.toLower)) = false := by
  have other (word : String) (letters : List Char) (spelled : word.toList = 'i' :: letters) :
      String.ofList ((first :: rest).map Char.toLower) ≠ word := by
    intro same
    rw [← same, String.toList_ofList, List.map_cons, toLower_of_isDigit digit] at spelled
    cases spelled
    cases digit
  rw [← Bool.not_eq_true, List.contains_iff_mem]
  intro mem
  rcases List.mem_cons.1 mem with short | long
  · exact other "inf" _ rfl short
  · exact other "infinity" _ rfl (List.mem_singleton.1 long)

theorem takeWhile_digits (all : AllDigits whole) (rest : List Char) :
    (whole ++ '.' :: rest).takeWhile Char.isDigit = whole := by
  rw [List.takeWhile_append_of_pos all, List.takeWhile_cons_of_neg (by decide), List.append_nil]

theorem dropWhile_digits (all : AllDigits whole) (rest : List Char) :
    (whole ++ '.' :: rest).dropWhile Char.isDigit = '.' :: rest := by
  rw [List.dropWhile_append_of_pos all, List.dropWhile_cons_of_neg (by decide)]

theorem takeWhile_all (all : AllDigits digits) : digits.takeWhile Char.isDigit = digits := by
  have split := @List.takeWhile_append_of_pos _ Char.isDigit digits [] all
  rwa [List.append_nil, List.takeWhile_nil, List.append_nil] at split

theorem dropWhile_all (all : AllDigits digits) : digits.dropWhile Char.isDigit = [] := by
  have split := @List.dropWhile_append_of_pos _ Char.isDigit digits [] all
  rwa [List.append_nil, List.dropWhile_nil] at split

/-- Digits without a point are a whole number. -/
theorem readNumber?_digits (negative : Bool) (all : AllDigits digits) (nonempty : digits ≠ []) :
    readNumber? negative digits = some (finite negative (digitsValue digits) 0) := by
  have some_ : digits.isEmpty = false := List.isEmpty_eq_false_iff.2 nonempty
  unfold readNumber?
  simp only [takeWhile_all all, dropWhile_all all, some_, Bool.false_and, Bool.false_eq_true,
    if_false, readExponent?, Option.map_some, List.append_nil, List.length_nil]
  rfl

theorem readNumber?_point (negative : Bool) (wholeAll : AllDigits whole)
    (fractionAll : AllDigits fraction) (nonempty : whole ≠ []) :
    readNumber? negative (whole ++ '.' :: fraction) =
      some (finite negative (digitsValue (whole ++ fraction)) (-(fraction.length : Int))) := by
  have some_ : whole.isEmpty = false := List.isEmpty_eq_false_iff.2 nonempty
  unfold readNumber?
  simp only [takeWhile_digits wholeAll, dropWhile_digits wholeAll, takeWhile_all fractionAll,
    dropWhile_all fractionAll, some_, Bool.false_and, Bool.false_eq_true, if_false, readExponent?,
    Option.map_some, Int.zero_sub]

theorem ofNumeral?_of_isDigit {first : Char} (digit : first.isDigit = true) (rest : List Char) :
    ofNumeral? (first :: rest) = readNumber? false (first :: rest) := by
  unfold ofNumeral?
  rw [readSign_cons digit]
  simp only [not_word_of_isDigit digit, Bool.false_eq_true, if_false]

/-- A row of digits with a point some places from its end is read as the number of the row, divided
by as many tens. -/
theorem ofNumeral?_placePoint (all : AllDigits digits) (nonempty : digits ≠ []) (places : Nat) :
    ofNumeral? (placePoint digits places) =
      some (finite false (digitsValue digits) (-(places : Int))) := by
  obtain ⟨first, rest, rfl⟩ := List.exists_cons_of_ne_nil nonempty
  have digit : first.isDigit = true := all first List.mem_cons_self
  unfold placePoint
  split
  · next none_ =>
    rw [ofNumeral?_of_isDigit digit, readNumber?_digits false all nonempty, none_]
    rfl
  · split
    · next short =>
      have filled := all.replicate_append (places - (first :: rest).length)
      rw [ofNumeral?_of_isDigit rfl]
      refine (readNumber?_point false .zero filled (List.cons_ne_nil _ _)).trans ?_
      rw [List.singleton_append, digitsValue_cons_zero, digitsValue_replicate_append,
        List.length_append, List.length_replicate, Nat.sub_add_cancel short]
    · next long =>
      obtain ⟨kept, kept_eq⟩ : ∃ kept, (first :: rest).length - places = kept + 1 :=
        ⟨_, (Nat.succ_pred_eq_of_pos (by omega)).symm⟩
      have wholeAll := all.of_sublist (List.take_sublist (kept + 1) _)
      have fractionAll := all.of_sublist (List.drop_sublist (kept + 1) _)
      have fractionLength : ((first :: rest).drop (kept + 1)).length = places := by
        rw [List.length_drop]
        omega
      have read := readNumber?_point false wholeAll fractionAll (List.cons_ne_nil _ _)
      rw [List.take_append_drop, fractionLength] at read
      rw [kept_eq, List.take_succ_cons, List.cons_append, ofNumeral?_of_isDigit digit]
      exact read

end HyperbolicAuction.Decimal
