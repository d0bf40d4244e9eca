import HyperbolicAuction.Proofs.Binary64.Share
import HyperbolicAuction.Proofs.Curve.Decay
import HyperbolicAuction.Proofs.Curve.Sampling
import Mathlib.Control.Monad.Basic

/-!
# A drawn curve descends

The offsets of a curve are shares of the window, each rounded twice, and the last one is the end of
the window as it is. They are in order all the same, the step to the last one included, and so are
the times that they stand for; the prices fall from point to point and stay above the floor. Segments
may be as many as binary64 counts exactly, and no offset or time may run beyond the finite values.

Main statements: `sampleOffset_mono`, `samples_descend`.
-/

namespace HyperbolicAuction

open Binary64 Scalar

variable {epoch : Epoch Binary64} {window : Window Binary64} {steps : Int} {bound : Binary64}
  {index later count : Nat} {point other : Point Binary64} {points : List (Point Binary64)}

/-! ## Offsets -/

theorem sampleOffset_of_lt (less : index < count) :
    Epoch.sampleOffset bound count index = bound * Nat.cast index / Nat.cast count := by
  rw [Epoch.sampleOffset, if_neg (Nat.ne_of_lt less)]

/-- Offsets that are finite are in order, and none is beyond the end of the window. -/
theorem sampleOffset_mono (usable : isUsable bound = true) (short : count ≤ 2 ^ 53)
    (ordered : index ≤ later) (within : later ≤ count)
    (finite_ : (Epoch.sampleOffset bound count index).isFinite = true)
    (laterFinite : (Epoch.sampleOffset bound count later).isFinite = true) :
    Epoch.sampleOffset bound count index ≤ Epoch.sampleOffset bound count later := by
  obtain ⟨boundFinite, positive⟩ := isUsable_eq_true_iff.1 usable
  have boundPositive := pos_of_isUsable usable
  rcases Nat.lt_or_eq_of_le within with laterLess | rfl
  · have less : index < count := Nat.lt_of_le_of_lt ordered laterLess
    rw [sampleOffset_of_lt less] at finite_ ⊢
    rw [sampleOffset_of_lt laterLess] at laterFinite ⊢
    exact share_mono boundFinite (Int.le_of_lt boundPositive) ordered (by omega) (by omega) short
      finite_ laterFinite
  · rcases Nat.lt_or_eq_of_le ordered with less | rfl
    · have last : Epoch.sampleOffset bound later later = bound := if_pos rfl
      rw [last]
      rw [sampleOffset_of_lt less] at finite_ ⊢
      exact share_le boundFinite boundPositive less short finite_
    · exact le_refl (isFinite_iff.1 finite_).1

/-! ## Points -/

/-- Two points of which the first is drawn at no greater an offset: it is no later, and no cheaper. -/
structure Point.Precedes (point other : Point Binary64) : Prop where
  offset : point.u ≤ other.u
  time : point.tau ≤ other.tau
  price : other.price ≤ point.price

/-- Points that descend from the start of an epoch to the end of a window, above its floor. -/
structure Epoch.Descends (epoch : Epoch Binary64) (bound : Binary64)
    (points : List (Point Binary64)) : Prop where
  first : points.head?.map (·.u) = some 0
  last : points.getLast?.map (·.u) = some bound
  within : ∀ point ∈ points, point.u ≤ bound
  ordered : points.Pairwise Point.Precedes
  aboveFloor : ∀ point ∈ points, point.price ≠ nan ∧ epoch.floor ≤ point.price

theorem unitSeconds_nonneg (defines : epoch.definesCurve = true) : 0 ≤ epoch.unitSeconds := by
  rcases Epoch.unitSeconds_cases defines with ⟨_, unit⟩ | half
  · rw [unit]
    exact within_one.nonneg
  · obtain ⟨_, decay, usable⟩ := epoch.usable_of_definesCurve defines
    cases known : epoch.premiumRate with
    | none =>
      rw [Epoch.halfLife_of_none known] at half
      cases half
    | some premium =>
      rw [Epoch.halfLife_of_some known (usable premium known)] at half
      rw [← Option.some.inj half]
      exact halfLife_nonneg decay (pos_of_isUsable (usable premium known))

/-- Of two samples that stand for finite times, the one at the greater offset is no earlier, and its
price is no greater. -/
theorem precedes_of_sampleAt {u greater : Binary64} (defines : epoch.definesCurve = true)
    (sampled : epoch.sampleAt u = .ok point) (otherSampled : epoch.sampleAt greater = .ok other)
    (ordered : u ≤ greater) (timed : point.tau.isFinite = true)
    (otherTimed : other.tau.isFinite = true) : point.Precedes other := by
  obtain ⟨_, offset, time, asks⟩ := parts_of_sampleAt sampled
  obtain ⟨_, otherOffset, otherTime, otherAsks⟩ := parts_of_sampleAt otherSampled
  have times : point.tau ≤ other.tau := by
    rw [time] at timed ⊢
    rw [otherTime] at otherTimed ⊢
    obtain ⟨offsetFinite, unitFinite⟩ := isFinite_of_isFinite_mul timed
    exact mul_le_mul_right offsetFinite (isFinite_of_isFinite_mul otherTimed).1 unitFinite
      (le_iff.1 (unitSeconds_nonneg defines)).2.2 ordered
  exact {
    offset := by rwa [offset, otherOffset]
    time := times
    price := askAfter_antitone defines times asks otherAsks }

/-- The points of a curve in at most `2 ^ 53` segments descend, if their offsets and times are
finite. -/
theorem descends_of_samplesUpTo (defines : epoch.definesCurve = true) (usable : isUsable bound = true)
    (some_ : 0 < count) (short : count ≤ 2 ^ 53)
    (sampled : epoch.samplesUpTo bound count = .ok points)
    (finite_ : ∀ point ∈ points, point.u.isFinite = true ∧ point.tau.isFinite = true) :
    epoch.Descends bound points := by
  have draws := draws_of_samplesUpTo defines sampled
  have boundFinite := (isUsable_eq_true_iff.1 usable).1
  have offset {index : Nat} (drawn : index < points.length) :
      points[index].u = Epoch.sampleOffset bound count index :=
    (parts_of_sampleAt (sampleAt_of_samplesUpTo sampled drawn).2).2.1
  have offsetFinite {index : Nat} (drawn : index < points.length) :
      (Epoch.sampleOffset bound count index).isFinite = true := by
    rw [← offset drawn]
    exact (finite_ _ (List.getElem_mem drawn)).1
  constructor
  · have drawn : 0 < points.length := by rw [draws.length]; omega
    rw [List.head?_eq_getElem?, List.getElem?_eq_getElem drawn]
    have start : points[0].u = 0 := by
      rw [offset drawn, sampleOffset_of_lt some_]
      exact share_zero (pos_of_isUsable usable) boundFinite some_ short
    exact congrArg some start
  · exact draws.last
  · intro point mem
    obtain ⟨index, drawn, rfl⟩ := List.getElem_of_mem mem
    have last : Epoch.sampleOffset bound count count = bound := if_pos rfl
    have within := (sampleAt_of_samplesUpTo sampled drawn).1
    have atMost := sampleOffset_mono usable short within (Nat.le_refl _) (offsetFinite drawn)
      (by rwa [last])
    rwa [last, ← offset drawn] at atMost
  · rw [List.pairwise_iff_getElem]
    intro index later drawn laterDrawn less
    have stepped := (sampleAt_of_samplesUpTo sampled drawn).2
    obtain ⟨within, laterStepped⟩ := sampleAt_of_samplesUpTo sampled laterDrawn
    refine precedes_of_sampleAt defines stepped laterStepped ?_ (finite_ _ (List.getElem_mem _)).2
      (finite_ _ (List.getElem_mem _)).2
    exact sampleOffset_mono usable short (Nat.le_of_lt less) within (offsetFinite drawn)
      (offsetFinite laterDrawn)
  · intro point mem
    obtain ⟨floorFinite, decay, premiums⟩ := epoch.usable_of_definesCurve defines
    have timed := (isFinite_iff.1 (finite_ point mem).2).1
    have above : epoch.floor ≤ point.price :=
      floor_le_ask (isFinite_iff.1 floorFinite).1 (ne_infinity_of_isFinite floorFinite true) decay
        (fun premium known => pos_of_isUsable (premiums premium known)) timed
        (draws.liesOn point mem).price
    exact ⟨(ne_nan_of_le above).2, above⟩

/-- Samples of finite offsets and times descend to the end of the window, whatever epoch and window
they are of, in as many segments as binary64 counts exactly. -/
theorem samples_descend (sampled : epoch.samples window steps = .ok points) (nonempty : points ≠ [])
    (short : steps ≤ 2 ^ 53)
    (finite_ : ∀ point ∈ points, point.u.isFinite = true ∧ point.tau.isFinite = true) :
    ∃ bound, window.bound epoch = .ok (some bound) ∧ epoch.Descends bound points := by
  obtain ⟨many, defines, bound, found, sampledUpTo⟩ := samplesUpTo_of_samples sampled nonempty
  refine ⟨bound, found, ?_⟩
  exact descends_of_samplesUpTo defines (isUsable_of_bound found) (by omega) (by omega) sampledUpTo
    finite_

/-- A genesis epoch over a floor of four, whose half-life is no binary64 number exactly. -/
def inexactEpoch : Epoch Binary64 where
  index := 1
  floor := ofNat 4
  k := ofNat 100
  premiumRate := some (ofNat 6)
  startTime := 0
  nowTime := 0
  isGenesis := true

/-- A window of a tenth of a half-life. -/
def tenthWindow : Window Binary64 := { Window.standard with requested := some (ofQuotient false 1 10) }

theorem samples_descend_inexact : ∃ points, inexactEpoch.samples tenthWindow 3 = .ok points ∧
    (points ≠ [] ∧ (3 : Int) ≤ 2 ^ 53 ∧
      ∀ point ∈ points, point.u.isFinite = true ∧ point.tau.isFinite = true) ∧
    ∃ bound, tenthWindow.bound inexactEpoch = .ok (some bound) ∧
      inexactEpoch.Descends bound points := by
  obtain ⟨points, sampled, checked⟩ : ∃ points, inexactEpoch.samples tenthWindow 3 = .ok points ∧
      (!points.isEmpty && points.all fun point => point.u.isFinite && point.tau.isFinite) = true :=
    Outcome.exists_of_map (by decide +kernel)
  simp only [Bool.and_eq_true, List.all_eq_true, Bool.not_eq_true', List.isEmpty_eq_false_iff]
    at checked
  have short : (3 : Int) ≤ 2 ^ 53 := by decide
  exact ⟨points, sampled, ⟨checked.1, short, checked.2⟩,
    samples_descend sampled checked.1 short checked.2⟩

end HyperbolicAuction
