import HyperbolicAuction.Auction.Basic
import HyperbolicAuction.Proofs.Binary64.Order
import Mathlib.Data.List.Basic

/-!
# Sales sorted by time

Where every sale has a time, sorting is sorting by positions: the times come out the same whatever
order the sales are given in, and sales of one time keep the order they are given in. So the last
sale in order is a latest one, and of the latest ones that which is given last.

Main statements: `filter_inOrder`, `times_inOrder_eq`, `isLatest_getLast?`, `getLast?_inOrder_append`.
-/

namespace HyperbolicAuction.Sale

open Binary64

/-- Every sale is at a time. -/
def AllTimed (sales : List (Sale Binary64)) : Prop := ∀ sale ∈ sales, sale.time ≠ nan

/-- A sale that none is later than. -/
def IsLatest (sales : List (Sale Binary64)) (sale : Sale Binary64) : Prop :=
  sale ∈ sales ∧ ∀ other ∈ sales, other.time ≤ sale.time

instance (sales : List (Sale Binary64)) : Decidable (AllTimed sales) :=
  inferInstanceAs (Decidable (∀ sale ∈ sales, sale.time ≠ nan))

instance (sales : List (Sale Binary64)) (sale : Sale Binary64) : Decidable (IsLatest sales sale) :=
  inferInstanceAs (Decidable (sale ∈ sales ∧ ∀ other ∈ sales, other.time ≤ sale.time))

variable {sales other rest : List (Sale Binary64)} {last : Sale Binary64}

theorem AllTimed.of_perm (timed : AllTimed sales) (reordered : other.Perm sales) : AllTimed other :=
  fun sale mem => timed sale (reordered.mem_iff.1 mem)

theorem IsLatest.of_perm (latest : IsLatest other last) (reordered : other.Perm sales) :
    IsLatest sales last :=
  ⟨reordered.mem_iff.1 latest.1, fun sale mem => latest.2 sale (reordered.mem_iff.2 mem)⟩

/-- Latest sales are at one time. -/
theorem IsLatest.position_eq {left right : Sale Binary64} (leftLatest : IsLatest sales left)
    (rightLatest : IsLatest sales right) : left.time.position = right.time.position :=
  Int.le_antisymm (le_iff.1 (rightLatest.2 left leftLatest.1)).2.2
    (le_iff.1 (leftLatest.2 right rightLatest.1)).2.2

/-! ## Sorting by positions -/

/-- Whether a sale may stand before another. -/
def mayPrecede (left right : Sale Binary64) : Bool := decide (left.time.position ≤ right.time.position)

theorem mayPrecede_trans (left middle right : Sale Binary64) (first : mayPrecede left middle = true)
    (second : mayPrecede middle right = true) : mayPrecede left right = true := by
  simp only [mayPrecede, decide_eq_true_eq] at first second ⊢
  exact Int.le_trans first second

theorem mayPrecede_total (left right : Sale Binary64) :
    (mayPrecede left right || mayPrecede right left) = true := by
  simp only [mayPrecede, Bool.or_eq_true, decide_eq_true_eq]
  exact Int.le_total _ _

/-- Comparison of times is not transitive for what is at no time, which is why the sort is first
turned into one by positions. -/
theorem inOrder_eq_mergeSort (timed : AllTimed sales) :
    inOrder sales = sales.mergeSort mayPrecede := by
  have agree : ∀ left ∈ sales, ∀ right ∈ sales,
      (!right.isBefore left) = mayPrecede (id left) (id right) := by
    intro left leftMem right rightMem
    have leftTimed := timed left leftMem
    have rightTimed := timed right rightMem
    rw [Bool.eq_iff_iff]
    simp only [isBefore, mayPrecede, id, Bool.not_eq_true', decide_eq_false_iff_not,
      decide_eq_true_eq, lt_iff]
    constructor
    · intro notBefore
      exact Int.not_lt.1 fun less => notBefore ⟨rightTimed, leftTimed, less⟩
    · rintro ordered ⟨_, _, less⟩
      omega
  have sorted := List.map_mergeSort agree
  rwa [List.map_id, List.map_id] at sorted

theorem perm_inOrder (sales : List (Sale Binary64)) : (inOrder sales).Perm sales :=
  List.mergeSort_perm _ _

theorem pairwise_inOrder (timed : AllTimed sales) :
    (inOrder sales).Pairwise fun earlier later => earlier.time.position ≤ later.time.position := by
  rw [inOrder_eq_mergeSort timed]
  refine (List.pairwise_mergeSort mayPrecede_trans mayPrecede_total sales).imp ?_
  intro earlier later before
  exact decide_eq_true_iff.1 before

/-- The times in order do not depend on the order that the sales are given in. -/
theorem times_inOrder_eq (timed : AllTimed sales) (reordered : other.Perm sales) :
    (inOrder other).map (·.time.position) = (inOrder sales).map (·.time.position) := by
  have sorted : ((inOrder sales).map (·.time.position)).Pairwise (· ≤ ·) :=
    List.pairwise_map.2 (pairwise_inOrder timed)
  have otherSorted : ((inOrder other).map (·.time.position)).Pairwise (· ≤ ·) :=
    List.pairwise_map.2 (pairwise_inOrder (timed.of_perm reordered))
  have permuted : (inOrder other).Perm (inOrder sales) :=
    (perm_inOrder other).trans (reordered.trans (perm_inOrder sales).symm)
  refine List.Perm.eq_of_pairwise ?_ otherSorted sorted (permuted.map _)
  intro left right _ _ ordered reversed
  exact Int.le_antisymm ordered reversed

/-- Sales of one time stay in the order they are given in. -/
theorem filter_inOrder (timed : AllTimed sales) (place : Int) :
    (inOrder sales).filter (·.time.position = place) =
      sales.filter (·.time.position = place) := by
  have level : (sales.filter (·.time.position = place)).Pairwise
      fun left right => mayPrecede left right = true := by
    refine List.pairwise_of_forall_mem_list fun left leftMem right rightMem => ?_
    have leftPlace := of_decide_eq_true (List.mem_filter.1 leftMem).2
    have rightPlace := of_decide_eq_true (List.mem_filter.1 rightMem).2
    exact decide_eq_true (Int.le_of_eq (leftPlace.trans rightPlace.symm))
  have kept : (sales.filter (·.time.position = place)).Sublist (inOrder sales) := by
    rw [inOrder_eq_mergeSort timed]
    exact List.sublist_mergeSort mayPrecede_trans mayPrecede_total level List.filter_sublist
  have among := kept.filter (·.time.position = place)
  simp only [List.filter_filter, Bool.and_self] at among
  exact (among.eq_of_length ((perm_inOrder sales).filter _).length_eq.symm).symm

/-! ## The last sale -/

theorem exists_getLast?_inOrder (nonempty : sales ≠ []) :
    ∃ last, (inOrder sales).getLast? = some last := by
  cases found : (inOrder sales).getLast? with
  | some last => exact ⟨last, rfl⟩
  | none =>
    have none_ := (perm_inOrder sales).length_eq
    rw [List.getLast?_eq_none_iff.1 found] at none_
    exact absurd (List.eq_nil_of_length_eq_zero none_.symm) nonempty

/-- The last sale in order is a latest one. -/
theorem isLatest_getLast? (timed : AllTimed sales)
    (found : (inOrder sales).getLast? = some last) : IsLatest sales last := by
  obtain ⟨earlier, ordered⟩ := List.getLast?_eq_some_iff.1 found
  have members (sale : Sale Binary64) : sale ∈ sales ↔ sale ∈ earlier ++ [last] := by
    rw [← ordered]
    exact (perm_inOrder sales).mem_iff.symm
  have mem : last ∈ sales := (members last).2 (List.mem_append_right _ List.mem_cons_self)
  refine ⟨mem, fun sale saleMem => ?_⟩
  refine le_iff.2 ⟨timed sale saleMem, timed last mem, ?_⟩
  rcases List.mem_append.1 ((members sale).1 saleMem) with isEarlier | isLast
  · have sorted := pairwise_inOrder timed
    rw [ordered] at sorted
    exact (List.pairwise_append.1 sorted).2.2 sale isEarlier last List.mem_cons_self
  · exact Int.le_of_eq (congrArg (·.time.position) (List.mem_singleton.1 isLast))

/-- A latest sale that is given last is the last in order. -/
theorem getLast?_inOrder_append (timed : AllTimed (rest ++ [last]))
    (latest : IsLatest (rest ++ [last]) last) :
    (inOrder (rest ++ [last])).getLast? = some last := by
  have nonempty : rest ++ [last] ≠ [] := List.append_ne_nil_of_right_ne_nil _ (List.cons_ne_nil _ _)
  obtain ⟨sale, found⟩ := exists_getLast?_inOrder nonempty
  have place := (isLatest_getLast? timed found).position_eq latest
  obtain ⟨earlier, ordered⟩ := List.getLast?_eq_some_iff.1 found
  have kept := filter_inOrder timed last.time.position
  rw [ordered, List.filter_append, List.filter_append, List.filter_singleton,
    List.filter_singleton, decide_eq_true place, decide_eq_true rfl] at kept
  have same : [sale] = [last] := List.append_inj_right' kept rfl
  rw [found, List.singleton_inj.1 same]

end HyperbolicAuction.Sale
