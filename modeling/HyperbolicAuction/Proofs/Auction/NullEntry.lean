import HyperbolicAuction.Proofs.Auction.Intake

/-!
# Null entries of a configuration

Every entry of a raw configuration that is null may be deleted, but for one. The opening time is
looked for under two keys, and a null under the first of them ends the search: it hides the time
under the second key, which comes to light when the null is deleted.

Main statements: `ofRaw_unset_null_iff`, a null entry counts as an absent one exactly where it hides
nothing from a configuration that is read, and `null_hides_openTime`, a time that is lost.
-/

namespace HyperbolicAuction

open Entries

attribute [local irreducible] Text.digitLimit Binary64.overflowLimit Binary64.unitsPerOne

variable {entries other : List (String × Raw)} {key : String} {decimals : Int}
  {config : Config Binary64}

/-! ## What is given -/

/-- Without an entry that is null, the same values are given as with it. -/
theorem givenValue?_unset (null : entries.lookup key = some .null) (name : String) :
    givenValue? (unset entries key) name = givenValue? entries name := by
  unfold givenValue?
  rw [lookup_unset]
  split
  · next same =>
    rw [same, null]
    rfl
  · rfl

/-- A null under the first key hides the time under the second. -/
def HidesOpenTime (entries : List (String × Raw)) : Prop :=
  entries.lookup "open_time" = some .null ∧ (givenValue? entries "open_time_sec").isSome = true

theorem hidesOpenTime_unset_iff (null : entries.lookup key = some .null) :
    HidesOpenTime (unset entries key) ↔ "open_time" ≠ key ∧ HidesOpenTime entries := by
  unfold HidesOpenTime
  rw [givenValue?_unset null, lookup_unset]
  split
  · next same => simp [same]
  · next apart => simp [apart]

theorem givenOpenTime?_of_hides (hides : HidesOpenTime entries) :
    givenOpenTime? entries = none := by
  unfold givenOpenTime?
  rw [hides.1]
  rfl

/-- A time that is not hidden is what is given under the first key, or else under the second. -/
theorem givenOpenTime?_of_not_hides (shown : ¬ HidesOpenTime entries) :
    givenOpenTime? entries =
      (givenValue? entries "open_time").or (givenValue? entries "open_time_sec") := by
  unfold HidesOpenTime at shown
  unfold givenOpenTime?
  cases first : entries.lookup "open_time" with
  | none => rw [givenValue?, first, givenValue?, Option.none_or, Option.filter_none, Option.none_or]
  | some value =>
    rw [givenValue?, first, Option.some_or]
    cases value with
    | null =>
      rw [first] at shown
      have absent : givenValue? entries "open_time_sec" = none := by
        rw [← Option.not_isSome_iff_eq_none]
        exact fun given => shown ⟨rfl, given⟩
      rw [absent]
      rfl
    | _ => rfl

/-- A hidden time is given under the second key and not under the first. -/
theorem given_of_hides (hides : HidesOpenTime entries) :
    ∃ value, givenValue? entries "open_time_sec" = some value ∧
      (givenValue? entries "open_time").or (givenValue? entries "open_time_sec") = some value := by
  obtain ⟨value, given⟩ := Option.isSome_iff_exists.1 hides.2
  refine ⟨value, given, ?_⟩
  rw [given, givenValue?, hides.1]
  rfl

/-- Deleting a null changes nothing of the opening time, unless the null hides it. -/
theorem givenOpenTime?_unset (null : entries.lookup key = some .null)
    (harmless : "open_time" = key → ¬ HidesOpenTime entries) :
    givenOpenTime? (unset entries key) = givenOpenTime? entries := by
  by_cases hides : HidesOpenTime entries
  · have stillHides : HidesOpenTime (unset entries key) :=
      (hidesOpenTime_unset_iff null).2 ⟨fun same => harmless same hides, hides⟩
    rw [givenOpenTime?_of_hides hides, givenOpenTime?_of_hides stillHides]
  · have stillShown : ¬ HidesOpenTime (unset entries key) :=
      fun hidden => hides ((hidesOpenTime_unset_iff null).1 hidden).2
    rw [givenOpenTime?_of_not_hides hides, givenOpenTime?_of_not_hides stillShown,
      givenValue?_unset null, givenValue?_unset null]

namespace Config

/-! ## What is read -/

theorem ofEntries_congr (same : ∀ name, givenValue? entries name = givenValue? other name)
    (sameTime : givenOpenTime? entries = givenOpenTime? other) :
    ofEntries entries decimals = ofEntries other decimals := by
  unfold ofEntries
  simp only [same, sameTime]

/-- The opening time is read last, and only it depends on what is given for it. -/
theorem ofEntries_eq_bind (same : ∀ name, givenValue? entries name = givenValue? other name)
    (untimed : givenOpenTime? other = none) :
    ofEntries entries decimals = do
      let config ← ofEntries other decimals
      let openTime ← (givenOpenTime? entries).mapM Amount.toSeconds
      return { config with openTime } := by
  unfold ofEntries
  simp only [same, untimed, bind_assoc]
  refine bind_congr fun decay => ?_
  cases decay with
  | none => rfl
  | some k => simp only [bind_assoc, Option.mapM_none, pure_bind]

/-- Deleting the null that hides an opening time lets the time be read as well. -/
theorem ofEntries_unset_of_hides (hides : HidesOpenTime entries) (decimals : Int) :
    ofEntries (unset entries "open_time") decimals = do
      let config ← ofEntries entries decimals
      let openTime ← (givenValue? entries "open_time_sec").mapM Amount.toSeconds
      return { config with openTime } := by
  have shown : ¬ HidesOpenTime (unset entries "open_time") :=
    fun hidden => ((hidesOpenTime_unset_iff hides.1).1 hidden).1 rfl
  obtain ⟨value, given, either⟩ := given_of_hides hides
  have brought : givenOpenTime? (unset entries "open_time") = some value := by
    rw [givenOpenTime?_of_not_hides shown, givenValue?_unset hides.1, givenValue?_unset hides.1,
      either]
  rw [ofEntries_eq_bind (givenValue?_unset hides.1) (givenOpenTime?_of_hides hides), brought, given]

/-- What is read where the opening time is hidden has none. -/
theorem openTime_of_hides (hides : HidesOpenTime entries)
    (read : ofEntries entries decimals = .ok config) : config.openTime = none := by
  obtain ⟨_, _, _, _, opens⟩ := ofEntries_cases read
  rw [givenOpenTime?_of_hides hides] at opens
  exact (Except.ok.inj opens).symm

/-- The two readings agree only if both are refused. -/
theorem ofEntries_unset_eq_iff (hides : HidesOpenTime entries) (decimals : Int) :
    ofEntries (unset entries "open_time") decimals = ofEntries entries decimals ↔
      ¬ ∃ config, ofEntries entries decimals = .ok config := by
  rw [ofEntries_unset_of_hides hides]
  cases read : ofEntries entries decimals with
  | error error => exact iff_of_true rfl fun ⟨_, returned⟩ => nomatch returned
  | ok config =>
    refine iff_of_false (fun same => ?_) fun none_ => none_ ⟨config, rfl⟩
    obtain ⟨value, given, _⟩ := given_of_hides hides
    rw [Outcome.ok_do, given] at same
    obtain ⟨openTime, timed, returned⟩ := Outcome.bind_eq_ok_iff.1 same
    have lost : openTime = none := by
      rw [← openTime_of_hides hides read, ← Except.ok.inj returned]
    rw [lost] at timed
    exact Outcome.some_mapM_ne_ok_none value _ timed

/-- With an entry that is null and without it, one configuration is read or one error reported,
unless the null hides the opening time of a configuration that is read. The time of a configuration
is the one given under the first key, or else under the second, unless it is hidden. -/
theorem ofRaw_unset_null_iff (entries : List (String × Raw)) (decimals : Int) :
    (∀ key, entries.lookup key = some .null →
      (ofRaw (.mapping (unset entries key)) decimals = ofRaw (.mapping entries) decimals ↔
        ¬ (key = "open_time" ∧ HidesOpenTime entries ∧
          ∃ config, ofRaw (.mapping entries) decimals = .ok config))) ∧
    ∀ config, ofRaw (.mapping entries) decimals = .ok config →
      (((givenValue? entries "open_time").or (givenValue? entries "open_time_sec")).mapM
        Amount.toSeconds = .ok config.openTime ↔ ¬ HidesOpenTime entries) := by
  constructor
  · intro key null
    by_cases lost : key = "open_time" ∧ HidesOpenTime entries
    · obtain ⟨rfl, hides⟩ := lost
      simp only [true_and, hides]
      exact ofEntries_unset_eq_iff hides decimals
    · refine iff_of_true ?_ fun all => lost ⟨all.1, all.2.1⟩
      exact ofEntries_congr (givenValue?_unset null)
        (givenOpenTime?_unset null fun same hides => lost ⟨same.symm, hides⟩)
  · intro config read
    by_cases hides : HidesOpenTime entries
    · obtain ⟨value, _, either⟩ := given_of_hides hides
      rw [either, openTime_of_hides hides read]
      exact iff_of_false (Outcome.some_mapM_ne_ok_none value _) fun shown => shown hides
    · obtain ⟨_, _, _, _, opens⟩ := ofEntries_cases read
      rw [← givenOpenTime?_of_not_hides hides]
      exact iff_of_true opens hides

/-! ## One time under two keys -/

theorem opens_seven : (some (.int 7)).mapM Amount.toSeconds = .ok (some (.ofInt 7)) :=
  Outcome.some_mapM_ok (Amount.toSeconds_eq (Amount.decode_int 7) (by decide +kernel))

/-- A decay, and an opening time under the first key. -/
def openTimeFirst : List (String × Raw) :=
  [("k", .int 5), ("open_time", .int 7), ("open_time_sec", .null)]

/-- A decay, and an opening time under the second key. -/
def openTimeSecond : List (String × Raw) :=
  [("k", .int 5), ("open_time", .null), ("open_time_sec", .int 7)]

theorem ofRaw_unset_null_iff_first :
    openTimeFirst.lookup "open_time_sec" = some .null ∧
      ofRaw (.mapping (unset openTimeFirst "open_time_sec")) 18 =
        ofRaw (.mapping openTimeFirst) 18 ∧
      ofRaw (.mapping openTimeFirst) 18 =
        .ok { k := .ofQuotient false 5 (10 ^ 18), openTime := some (.ofInt 7) } ∧
      ¬ HidesOpenTime openTimeFirst := by
  have null : openTimeFirst.lookup "open_time_sec" = some .null := rfl
  have read : ofRaw (.mapping openTimeFirst) 18 =
      .ok { k := .ofQuotient false 5 (10 ^ 18), openTime := some (.ofInt 7) } :=
    ofEntries_eq_ok rfl (toHuman_int (by decide)) rfl rfl rfl opens_seven
  obtain ⟨same_iff, timed_iff⟩ := ofRaw_unset_null_iff openTimeFirst 18
  have shown : ¬ HidesOpenTime openTimeFirst := (timed_iff _ read).1 opens_seven
  exact ⟨null, (same_iff _ null).2 fun lost => shown lost.2.1, read, shown⟩

/-- With a null under the first key the configuration has no opening time, and without it the one
under the second key. -/
theorem null_hides_openTime :
    openTimeSecond.lookup "open_time" = some .null ∧
      ofRaw (.mapping openTimeSecond) 18 = .ok { k := .ofQuotient false 5 (10 ^ 18) } ∧
      ofRaw (.mapping (unset openTimeSecond "open_time")) 18 =
        .ok { k := .ofQuotient false 5 (10 ^ 18), openTime := some (.ofInt 7) } ∧
      ofRaw (.mapping (unset openTimeSecond "open_time")) 18 ≠
        ofRaw (.mapping openTimeSecond) 18 := by
  have hidden : ofRaw (.mapping openTimeSecond) 18 =
      .ok { k := .ofQuotient false 5 (10 ^ 18) } :=
    ofEntries_eq_ok rfl (toHuman_int (by decide)) rfl rfl rfl rfl
  have brought : ofRaw (.mapping (unset openTimeSecond "open_time")) 18 =
      .ok { k := .ofQuotient false 5 (10 ^ 18), openTime := some (.ofInt 7) } :=
    ofEntries_eq_ok rfl (toHuman_int (by decide)) rfl rfl rfl opens_seven
  refine ⟨rfl, hidden, brought, ?_⟩
  rw [hidden, brought]
  intro same
  cases congrArg Config.openTime (Except.ok.inj same)

end Config

end HyperbolicAuction
