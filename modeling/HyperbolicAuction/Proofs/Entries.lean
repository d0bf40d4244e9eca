import HyperbolicAuction.Basic

/-!
# Entries that agree where it counts

Two rows of entries agree on the names that count if they differ in entries of other names alone.
Such entries may be added, removed and changed at any place of either row: what is found under a name
that counts stays the same, and so it does after entries are set.

Main statements: `AgreeOn.find?_eq`, `AgreeOn.lookup_eq`, `AgreeOn.set_both`.
-/

namespace HyperbolicAuction.Entries

/-- Two rows that differ only in entries whose names do not count. -/
inductive AgreeOn {α : Type} (counts : String → Prop) :
    List (String × α) → List (String × α) → Prop
  | nil : AgreeOn counts [] []
  | both {left right : List (String × α)} (entry : String × α) :
      AgreeOn counts left right → AgreeOn counts (entry :: left) (entry :: right)
  | onlyLeft {left right : List (String × α)} (entry : String × α) :
      ¬ counts entry.1 → AgreeOn counts left right → AgreeOn counts (entry :: left) right
  | onlyRight {left right : List (String × α)} (entry : String × α) :
      ¬ counts entry.1 → AgreeOn counts left right → AgreeOn counts left (entry :: right)

namespace AgreeOn

variable {α β : Type} {counts fewer : String → Prop} {left right leftEnd rightEnd : List (String × α)}
  {name : String} {value : α}

theorem refl (entries : List (String × α)) : AgreeOn counts entries entries := by
  induction entries with
  | nil => exact nil
  | cons entry rest ih => exact both entry ih

theorem mono (included : ∀ name, fewer name → counts name) (agree : AgreeOn counts left right) :
    AgreeOn fewer left right := by
  induction agree with
  | nil => exact nil
  | both entry _ ih => exact both entry ih
  | onlyLeft entry ignored _ ih => exact onlyLeft entry (fun used => ignored (included _ used)) ih
  | onlyRight entry ignored _ ih => exact onlyRight entry (fun used => ignored (included _ used)) ih

theorem append (agree : AgreeOn counts left right) (ends : AgreeOn counts leftEnd rightEnd) :
    AgreeOn counts (left ++ leftEnd) (right ++ rightEnd) := by
  induction agree with
  | nil => exact ends
  | both entry _ ih => exact both entry ih
  | onlyLeft entry ignored _ ih => exact onlyLeft entry ignored ih
  | onlyRight entry ignored _ ih => exact onlyRight entry ignored ih

theorem reverse (agree : AgreeOn counts left right) : AgreeOn counts left.reverse right.reverse := by
  induction agree with
  | nil => exact nil
  | both entry _ ih =>
    rw [List.reverse_cons, List.reverse_cons]
    exact append ih (refl [entry])
  | onlyLeft entry ignored _ ih =>
    have added := append ih (onlyLeft entry ignored nil)
    rwa [List.append_nil, ← List.reverse_cons] at added
  | onlyRight entry ignored _ ih =>
    have added := append ih (onlyRight entry ignored nil)
    rwa [List.append_nil, ← List.reverse_cons] at added

/-- Values may be changed in the same way on both sides. -/
theorem map (change : α → β) (agree : AgreeOn counts left right) :
    AgreeOn counts (left.map fun entry => (entry.1, change entry.2))
      (right.map fun entry => (entry.1, change entry.2)) := by
  induction agree with
  | nil => exact nil
  | both entry _ ih => exact both _ ih
  | onlyLeft entry ignored _ ih => exact onlyLeft (entry.1, change entry.2) ignored ih
  | onlyRight entry ignored _ ih => exact onlyRight (entry.1, change entry.2) ignored ih

/-- A search that stops at names that count finds the same entry on both sides. -/
theorem find?_eq {isSought : String → Bool} (counted : ∀ name, isSought name = true → counts name)
    (agree : AgreeOn counts left right) :
    left.find? (fun entry => isSought entry.1) = right.find? fun entry => isSought entry.1 := by
  have passed {entry : String × α} (ignored : ¬ counts entry.1) : isSought entry.1 = false :=
    Bool.eq_false_iff.2 fun sought => ignored (counted _ sought)
  induction agree with
  | nil => rfl
  | both entry _ ih => rw [List.find?_cons, List.find?_cons, ih]
  | onlyLeft entry ignored _ ih =>
    rw [List.find?_cons, passed ignored]
    exact ih
  | onlyRight entry ignored _ ih =>
    rw [List.find?_cons, passed ignored]
    exact ih

theorem lookup_eq (counted : counts name) (agree : AgreeOn counts left right) :
    left.lookup name = right.lookup name := by
  have passed {entry : String × α} (ignored : ¬ counts entry.1) : (name == entry.1) = false :=
    beq_false_of_ne fun same => ignored (same ▸ counted)
  induction agree with
  | nil => rfl
  | both entry _ ih => rw [List.lookup_cons, List.lookup_cons, ih]
  | onlyLeft entry ignored _ ih =>
    rw [List.lookup_cons, passed ignored]
    exact ih
  | onlyRight entry ignored _ ih =>
    rw [List.lookup_cons, passed ignored]
    exact ih

/-! ## Setting entries -/

theorem set_both (counted : counts name) (value : α) (agree : AgreeOn counts left right) :
    AgreeOn counts (set left name value) (set right name value) := by
  have other {entry : String × α} (ignored : ¬ counts entry.1) : entry.1 ≠ name :=
    fun same => ignored (same ▸ counted)
  induction agree with
  | nil => exact refl _
  | both entry rest ih =>
    unfold set
    split
    · exact both _ rest
    · exact both _ ih
  | onlyLeft entry ignored _ ih =>
    rw [set, if_neg (other ignored)]
    exact onlyLeft _ ignored ih
  | onlyRight entry ignored _ ih =>
    rw [set, if_neg (other ignored)]
    exact onlyRight _ ignored ih

/-- An entry that does not count may be set on one side. -/
theorem set_left (ignored : ¬ counts name) (value : α) (agree : AgreeOn counts left right) :
    AgreeOn counts (set left name value) right := by
  induction agree with
  | nil => exact onlyLeft _ ignored nil
  | both entry rest ih =>
    unfold set
    split
    · next same => exact onlyLeft _ ignored (onlyRight _ (same ▸ ignored) rest)
    · exact both _ ih
  | onlyLeft entry unused rest ih =>
    unfold set
    split
    · exact onlyLeft _ ignored rest
    · exact onlyLeft _ unused ih
  | onlyRight entry unused _ ih => exact onlyRight _ unused ih

theorem symm (agree : AgreeOn counts left right) : AgreeOn counts right left := by
  induction agree with
  | nil => exact nil
  | both entry _ ih => exact both entry ih
  | onlyLeft entry ignored _ ih => exact onlyRight entry ignored ih
  | onlyRight entry ignored _ ih => exact onlyLeft entry ignored ih

theorem set_right (ignored : ¬ counts name) (value : α) (agree : AgreeOn counts left right) :
    AgreeOn counts left (set right name value) :=
  symm (set_left ignored value (symm agree))

end AgreeOn

end HyperbolicAuction.Entries
