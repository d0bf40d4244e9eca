import HyperbolicAuction.Proofs.Curve.Nearest

/-!
# Readings at the samples

Where the values of a coordinate ascend, a reading at a sample is that sample, bit for bit, whatever
the other columns hold there or beside it: no chord is drawn. Beyond the ends the curve is read at
the end, and what has been read is read again at its own coordinate. This holds of either coordinate.

Main statements: `IsHit.interpolate_eq`, `clamp_within`, `readsBack`.
-/

namespace HyperbolicAuction.Lookup

open Binary64 Scalar

/-- Samples at finite values of a coordinate, each above the one before. -/
structure IsAscending (lookup : Lookup Binary64) (key : Point Binary64 → Binary64) : Prop where
  finite_ : ∀ sample ∈ lookup.points, (key sample).isFinite = true
  ascending : lookup.points.Pairwise fun earlier later => key earlier < key later

/-- What readings by a coordinate keep of the samples. -/
structure ReadsBack (lookup : Lookup Binary64) (key : Point Binary64 → Binary64)
    (read : Binary64 → Option (Point Binary64)) : Prop where
  hit : ∀ sample ∈ lookup.points, read (key sample) = some sample
  below : ∀ at_ first, lookup.points.head? = some first → at_ < key first → read at_ = some first
  above : ∀ at_ last, lookup.points.getLast? = some last → key last < at_ → read at_ = some last
  within : ∀ at_, at_ ≠ nan → ∃ point low high, read at_ = some point ∧
    lookup.range? key = some (low, high) ∧ low ≤ key point ∧ key point ≤ high ∧
    read (key point) = some point

/-! ## Rows -/

/-- The key of a row stands among the keys of the rows as the row stands among them. -/
structure IsHit (rows : List (Binary64 × Binary64)) (place : Nat) (row : Binary64 × Binary64) :
    Prop where
  found : rows[place]? = some row
  number : row.1 ≠ nan
  upTo_iff : ∀ index other, rows[index]? = some other → (other.1 ≤ row.1 ↔ index ≤ place)
  above_iff : ∀ index other, rows[index]? = some other → (row.1 < other.1 ↔ place < index)

variable {rows rest : List (Binary64 × Binary64)} {first row : Binary64 × Binary64} {place : Nat}

theorem isHit_of_ascending (numbers : ∀ row ∈ rows, row.1 ≠ nan)
    (ascending : rows.Pairwise fun earlier later => earlier.1 < later.1)
    (found : rows[place]? = some row) : IsHit rows place row := by
  have rises (index later : Nat) (one other : Binary64 × Binary64)
      (foundOne : rows[index]? = some one) (foundOther : rows[later]? = some other)
      (less : index < later) : one.1.position < other.1.position := by
    obtain ⟨inRows, rfl⟩ := List.getElem?_eq_some_iff.1 foundOne
    obtain ⟨laterInRows, rfl⟩ := List.getElem?_eq_some_iff.1 foundOther
    exact (lt_iff.1 (List.pairwise_iff_getElem.1 ascending index later inRows laterInRows less)).2.2
  have number := numbers row (List.mem_of_getElem? found)
  have order (index : Nat) (other : Binary64 × Binary64) (foundOther : rows[index]? = some other) :
      other.1.position ≤ row.1.position ↔ index ≤ place := by
    rcases Nat.lt_trichotomy index place with before | rfl | behind
    · have rise := rises index place other row foundOther found before
      omega
    · cases found.symm.trans foundOther
      omega
    · have rise := rises place index row other found foundOther behind
      omega
  refine ⟨found, number, ?_, ?_⟩
  · intro index other foundOther
    have otherNumber := numbers other (List.mem_of_getElem? foundOther)
    rw [← order index other foundOther, le_iff]
    exact ⟨fun upTo => upTo.2.2, fun upTo => ⟨otherNumber, number, upTo⟩⟩
  · intro index other foundOther
    have otherNumber := numbers other (List.mem_of_getElem? foundOther)
    rw [lt_iff_position number otherNumber, ← Int.not_le, ← Nat.not_le]
    exact not_congr (order index other foundOther)

namespace IsHit

theorem placeAfter_eq (hit : IsHit rows place row) :
    placeAfter row.1 rows.toArray = place + 1 := by
  obtain ⟨inRows, _⟩ := List.getElem?_eq_some_iff.1 hit.found
  refine Lookup.placeAfter_eq (Nat.succ_pos place) inRows ?_ ?_
  · intro index other foundOther
    rw [hit.upTo_iff index other foundOther, Nat.lt_succ_iff]
  · exact hit.above_iff

theorem not_lt (hit : IsHit rows place row) {index : Nat} {other : Binary64 × Binary64}
    (foundOther : rows[index]? = some other) (after : place ≤ index) : ¬ other.1 < row.1 := by
  intro below
  have upTo := (hit.upTo_iff index other foundOther).1 (Binary64.le_of_lt below)
  obtain rfl := Nat.le_antisymm upTo after
  obtain rfl := Option.some.inj (hit.found.symm.trans foundOther)
  exact not_lt_of_le (le_refl hit.number) below

/-- At the key of a row, its value is read. -/
theorem interpolate_eq (hit : IsHit (first :: rest) place row) :
    interpolate first rest row.1 = row.2 := by
  obtain ⟨inRows, _⟩ := List.getElem?_eq_some_iff.1 hit.found
  rw [List.length_cons, Nat.lt_succ_iff] at inRows
  have atLast := getElem?_last first rest
  have self := le_refl hit.number
  have notBelow : ¬ row.1 < first.1 := fun below =>
    Nat.not_lt_zero place ((hit.above_iff 0 first rfl).1 below)
  have notAbove := hit.not_lt atLast inRows
  unfold interpolate
  simp only [isNumber_of_ne_nan hit.number, notBelow, notAbove, Bool.not_true, Bool.false_eq_true,
    if_false]
  split
  · next alone =>
    obtain rfl := List.isEmpty_iff.1 alone
    obtain rfl := Nat.le_zero.1 inRows
    rw [Option.some.inj hit.found]
  · rw [hit.placeAfter_eq]
    simp only [List.getElem?_toArray, Nat.add_sub_cancel, hit.found]
    cases next : (first :: rest)[place + 1]? with
    | some following => exact if_pos ⟨self, self⟩
    | none =>
      have beyond := List.getElem?_eq_none_iff.1 next
      rw [List.length_cons] at beyond
      rw [show rest.length = place by omega, hit.found, Option.some.injEq] at atLast
      rw [atLast]

end IsHit

/-! ## Holding a value -/

variable {value low high : Binary64}

theorem clamp_eq_self (above : low ≤ value) (below : value ≤ high) : clamp value low high = value := by
  rw [clamp_eq (ne_nan_of_le above).2 (le_trans above below), if_neg (not_lt_of_le above),
    if_neg (not_lt_of_le below)]

theorem clamp_eq_low (below : value < low) (ordered : low ≤ high) : clamp value low high = low := by
  rw [clamp_eq (lt_iff.1 below).1 ordered, if_pos below]

theorem clamp_eq_high (above : high < value) (ordered : low ≤ high) :
    clamp value low high = high := by
  have notBelow := not_lt_of_le (le_trans ordered (Binary64.le_of_lt above))
  rw [clamp_eq (lt_iff.1 above).2.1 ordered, if_neg notBelow, if_pos above]

theorem clamp_within (number : value ≠ nan) (ordered : low ≤ high) :
    low ≤ clamp value low high ∧ clamp value low high ≤ high := by
  obtain ⟨lowNumber, highNumber⟩ := ne_nan_of_le ordered
  rw [clamp_eq number ordered]
  split
  · exact ⟨le_refl lowNumber, ordered⟩
  · next notBelow =>
    split
    · exact ⟨ordered, le_refl highNumber⟩
    · next notAbove =>
      exact ⟨Binary64.le_of_not_lt lowNumber number notBelow,
        Binary64.le_of_not_lt number highNumber notAbove⟩

/-! ## Readings -/

variable {key : Point Binary64 → Binary64} {head sample : Point Binary64}
  {others : List (Point Binary64)}

/-- At a sample every column has the value of the sample. -/
theorem column_sample (ascending : IsAscending ⟨head :: others⟩ key)
    (value : Point Binary64 → Binary64) (mem : sample ∈ head :: others) :
    column key value head others (key sample) = value sample := by
  obtain ⟨place, found⟩ := List.mem_iff_getElem?.1 mem
  have hit : IsHit ((head :: others).map fun point => (key point, value point)) place
      (key sample, value sample) := by
    refine isHit_of_ascending ?_ (List.pairwise_map.2 ascending.ascending) ?_
    · intro row inRows
      obtain ⟨point, inPoints, rfl⟩ := List.mem_map.1 inRows
      exact (isFinite_iff.1 (ascending.finite_ point inPoints)).1
    · rw [List.getElem?_map, found, Option.map_some]
  exact hit.interpolate_eq

/-- Points put together from the value of a coordinate: they have it, and where it is that of a sample
they are the sample. -/
structure Assembles (lookup : Lookup Binary64) (key : Point Binary64 → Binary64)
    (assemble : Binary64 → Point Binary64) : Prop where
  key_eq : ∀ held, key (assemble held) = held
  sample_eq : ∀ sample ∈ lookup.points, assemble (key sample) = sample

/-- Whatever is put together from a held value reads the samples back. -/
theorem readsBack_of_assembles {assemble : Binary64 → Point Binary64}
    {read : Binary64 → Option (Point Binary64)} (ascending : IsAscending ⟨head :: others⟩ key)
    (assembles : Assembles ⟨head :: others⟩ key assemble)
    (read_eq : ∀ at_, read at_ =
      some (assemble (clamp at_ (key head) (key (others.getLastD head))))) :
    ReadsBack ⟨head :: others⟩ key read := by
  have between (sample : Point Binary64) (mem : sample ∈ head :: others) :
      key head ≤ key sample ∧ key sample ≤ key (others.getLastD head) := by
    refine between_ends (fun point inPoints => ?_) (ascending.ascending.imp Binary64.le_of_lt) mem
    exact (isFinite_iff.1 (ascending.finite_ point inPoints)).1
  have lastMem : others.getLastD head ∈ head :: others := List.getLastD_mem_cons
  have ordered := (between _ lastMem).1
  refine ⟨?_, ?_, ?_, ?_⟩
  · intro sample mem
    obtain ⟨fromHead, toLast⟩ := between sample mem
    rw [read_eq, clamp_eq_self fromHead toLast, assembles.sample_eq sample mem]
  · intro at_ first isFirst less
    obtain rfl := Option.some.inj isFirst
    rw [read_eq, clamp_eq_low less ordered, assembles.sample_eq _ List.mem_cons_self]
  · intro at_ last isLast greater
    rw [List.getLast?_cons, ← List.getLastD_eq_getLast?, Option.some.injEq] at isLast
    rw [← isLast] at greater ⊢
    rw [read_eq, clamp_eq_high greater ordered, assembles.sample_eq _ lastMem]
  · intro at_ number
    obtain ⟨fromHead, toLast⟩ := clamp_within number ordered
    refine ⟨_, _, _, read_eq at_, rfl, ?_, ?_, ?_⟩
    · rwa [assembles.key_eq]
    · rwa [assembles.key_eq]
    · rw [assembles.key_eq, read_eq, clamp_eq_self fromHead toLast]

/-- Samples of one epoch. -/
def SharesEpoch (lookup : Lookup Binary64) : Prop :=
  ∀ sample ∈ lookup.points, ∀ other ∈ lookup.points, sample.epochIndex = other.epochIndex

/-- What is put together from an offset between the ends. -/
def assembledAtU (head : Point Binary64) (others : List (Point Binary64)) (held : Binary64) :
    Point Binary64 where
  epochIndex := head.epochIndex
  tau := column Point.u Point.tau head others held
  u := held
  price := column Point.u Point.price head others held

/-- What is put together from the seconds between the ends. -/
def assembledAtTau (head : Point Binary64) (others : List (Point Binary64)) (held : Binary64) :
    Point Binary64 where
  epochIndex := head.epochIndex
  tau := held
  u := column Point.tau Point.u head others held
  price := column Point.tau Point.price head others held

theorem assembles_atU (ascending : IsAscending ⟨head :: others⟩ Point.u)
    (shared : SharesEpoch ⟨head :: others⟩) :
    Assembles ⟨head :: others⟩ Point.u (assembledAtU head others) where
  key_eq _ := rfl
  sample_eq sample mem := by
    rw [assembledAtU, column_sample ascending Point.tau mem, column_sample ascending Point.price mem,
      shared head List.mem_cons_self sample mem]

theorem assembles_atTau (ascending : IsAscending ⟨head :: others⟩ Point.tau)
    (shared : SharesEpoch ⟨head :: others⟩) :
    Assembles ⟨head :: others⟩ Point.tau (assembledAtTau head others) where
  key_eq _ := rfl
  sample_eq sample mem := by
    rw [assembledAtTau, column_sample ascending Point.u mem,
      column_sample ascending Point.price mem, shared head List.mem_cons_self sample mem]

/-- A sampled curve gives its samples back at their own coordinates, an end for all that lies beyond
it, and what it has read once at the coordinate where that was read. -/
theorem readsBack (lookup : Lookup Binary64) (nonempty : lookup.points ≠ [])
    (shared : lookup.SharesEpoch) :
    (lookup.IsAscending Point.u → lookup.ReadsBack Point.u lookup.atU?) ∧
      (lookup.IsAscending Point.tau → lookup.ReadsBack Point.tau lookup.atTau?) := by
  obtain ⟨points⟩ := lookup
  cases points with
  | nil => exact absurd rfl nonempty
  | cons head others =>
    constructor
    · intro ascending
      exact readsBack_of_assembles ascending (assembles_atU ascending shared) fun _ => rfl
    · intro ascending
      exact readsBack_of_assembles ascending (assembles_atTau ascending shared) fun _ => rfl

/-- The prices of these samples are no numbers, or not finite. -/
theorem readsBack_odd :
    let lookup : Lookup Binary64 := ⟨[⟨3, 0, 0, infinity false⟩, ⟨3, 1, 1, nan⟩]⟩
    lookup.points ≠ [] ∧ lookup.SharesEpoch ∧ lookup.IsAscending Point.u ∧
      lookup.IsAscending Point.tau ∧ lookup.ReadsBack Point.u lookup.atU? ∧
      lookup.ReadsBack Point.tau lookup.atTau? := by
  intro lookup
  have nonempty : lookup.points ≠ [] := List.cons_ne_nil _ _
  have shared : lookup.SharesEpoch := by
    unfold SharesEpoch
    decide +kernel
  have byU : lookup.IsAscending Point.u := ⟨by decide +kernel, by decide +kernel⟩
  have byTau : lookup.IsAscending Point.tau := ⟨by decide +kernel, by decide +kernel⟩
  obtain ⟨ofU, ofTau⟩ := readsBack lookup nonempty shared
  exact ⟨nonempty, shared, byU, byTau, ofU byU, ofTau byTau⟩

end HyperbolicAuction.Lookup
