import HyperbolicAuction.Proofs.Auction.Reordering

/-!
# The live epoch in one pass

Sorting the sales is not needed to know the epoch that they open. One pass over them, as they are
given, is enough: it keeps how many there were, the latest of them (of several at one moment that
which is given last), and the second greatest time.

`Summarizes` is the invariant of the pass; `liveEpoch_of_summarizes` says that it determines the
epoch. So an order that keeps the sales of each moment in their order makes no difference, and
neither does a sale before the two latest, but for the number of the epoch.

Main statements: `summarizes_ofSales`, `liveEpoch_of_summarizes`, `liveEpoch_onePass`.
-/

namespace HyperbolicAuction

open Binary64 Scalar

/-! ## The pass -/

/-- What is kept of the sales so far. -/
structure Recent where
  count : Nat
  latest : Sale Binary64
  /-- The second greatest time, of more than one sale. -/
  nextTime : Option Binary64
deriving DecidableEq

/-- The greater of a time and one that may be known. -/
def laterTime (known : Option Binary64) (time : Binary64) : Binary64 :=
  match known with
  | none => time
  | some known => larger time known

namespace Recent

/-- A sale before the latest one counts for its time alone. -/
def see (recent : Recent) (sale : Sale Binary64) : Recent :=
  if sale.isBefore recent.latest then
    { recent with
      count := recent.count + 1
      nextTime := some (laterTime recent.nextTime sale.time) }
  else
    { count := recent.count + 1
      latest := sale
      nextTime := some recent.latest.time }

/-- What is kept at the end of the pass. -/
def ofSales (first : Sale Binary64) (rest : List (Sale Binary64)) : Recent :=
  rest.foldl see { count := 1, latest := first, nextTime := none }

/-- The epoch that is opened by what has been kept. Its premium accrued since the second greatest
time or, after a single sale, since the opening, and for at least one second. -/
def epoch (recent : Recent) (config : Config Binary64) (nowTime : Binary64) : Epoch Binary64 where
  index := 1 + recent.count
  floor := recent.latest.price
  k := config.k
  premiumRate := do
    let accrual ← config.accrual
    let priorTime ← recent.nextTime.or config.openTime
    return accrual * larger 1 (recent.latest.time - priorTime)
  startTime := recent.latest.time
  nowTime := nowTime
  isGenesis := false

end Recent

/-- Sales of one time stand in the same order. -/
def Sale.KeepsTies (other sales : List (Sale Binary64)) : Prop :=
  ∀ sale ∈ sales, other.filter (·.time.SameNumber sale.time) =
    sales.filter (·.time.SameNumber sale.time)

variable {config : Config Binary64} {sales other front back : List (Sale Binary64)}
  {nowTime : Binary64} {recent : Recent} {sale first : Sale Binary64} {greatest : Option Binary64}

/-! ## The greatest time -/

/-- The greatest time of some sales, if there are any. -/
inductive IsGreatestTime : List (Sale Binary64) → Option Binary64 → Prop
  | ofNone : IsGreatestTime [] none
  | ofLatest {sales : List (Sale Binary64)} {sale : Sale Binary64} :
      Sale.IsLatest sales sale → IsGreatestTime sales (some sale.time)

namespace IsGreatestTime

theorem of_perm (isGreatest : IsGreatestTime sales greatest) (reordered : sales.Perm other) :
    IsGreatestTime other greatest := by
  cases isGreatest with
  | ofNone =>
    rw [← reordered.nil_eq]
    exact .ofNone
  | ofLatest latest => exact .ofLatest (latest.of_perm reordered)

theorem exists_le (isGreatest : IsGreatestTime sales greatest) (mem : sale ∈ sales) :
    ∃ time, greatest = some time ∧ sale.time ≤ time := by
  cases isGreatest with
  | ofNone => cases mem
  | ofLatest latest => exact ⟨_, rfl, latest.2 sale mem⟩

/-- A sale at an earlier time changes nothing. -/
theorem cons_of_le {time : Binary64} (isGreatest : IsGreatestTime sales (some time))
    (upTo : sale.time ≤ time) : IsGreatestTime (sale :: sales) (some time) := by
  cases isGreatest with
  | ofLatest latest =>
    refine .ofLatest ⟨List.mem_cons_of_mem _ latest.1, fun other mem => ?_⟩
    rcases List.mem_cons.1 mem with rfl | inSales
    · exact upTo
    · exact latest.2 other inSales

theorem cons (isGreatest : IsGreatestTime sales greatest) (timed : Sale.AllTimed (sale :: sales)) :
    IsGreatestTime (sale :: sales) (some (laterTime greatest sale.time)) := by
  have number := timed sale List.mem_cons_self
  cases isGreatest with
  | ofNone =>
    exact .ofLatest ⟨List.mem_cons_self, List.forall_mem_singleton.2 (le_refl number)⟩
  | @ofLatest _ latest isLatest =>
    have latestNumber := timed latest (List.mem_cons_of_mem _ isLatest.1)
    show IsGreatestTime (sale :: sales) (some (larger sale.time latest.time))
    unfold larger
    split
    · next before =>
      have upTo := le_iff.2 ⟨number, latestNumber, Int.le_of_lt (lt_iff.1 before).2.2⟩
      exact (ofLatest isLatest).cons_of_le upTo
    · next notBefore =>
      rw [lt_iff_position number latestNumber] at notBefore
      have after := le_iff.2 ⟨latestNumber, number, Int.not_lt.1 notBefore⟩
      refine .ofLatest ⟨List.mem_cons_self, List.forall_mem_cons.2 ⟨le_refl number, ?_⟩⟩
      exact fun other mem => le_trans (isLatest.2 other mem) after

end IsGreatestTime

/-! ## What the pass keeps -/

/-- What is kept of sales: their number, the latest one that is given last, and the greatest time of
the others. -/
structure Summarizes (recent : Recent) (sales : List (Sale Binary64)) : Prop where
  count : recent.count = sales.length
  latest : Sale.IsLatest sales recent.latest
  last : (sales.filter (·.time.position = recent.latest.time.position)).getLast? =
    some recent.latest
  next : IsGreatestTime (sales.erase recent.latest) recent.nextTime

theorem Sale.isBefore_iff {left right : Sale Binary64} (leftNumber : left.time ≠ nan)
    (rightNumber : right.time ≠ nan) :
    left.isBefore right = true ↔ left.time.position < right.time.position := by
  unfold Sale.isBefore
  rw [decide_eq_true_iff, lt_iff_position leftNumber rightNumber]

/-- One more sale. -/
theorem Summarizes.see (summarizes : Summarizes recent sales)
    (timed : Sale.AllTimed (sales ++ [sale])) : Summarizes (recent.see sale) (sales ++ [sale]) := by
  obtain ⟨count, latest, last, next⟩ := summarizes
  have saleMem : sale ∈ sales ++ [sale] := List.mem_append_right _ List.mem_cons_self
  have number := timed sale saleMem
  have latestNumber := timed recent.latest (List.mem_append_left _ latest.1)
  have counted : recent.count + 1 = (sales ++ [sale]).length := by
    rw [count, List.length_append, List.length_singleton]
  have moved := List.perm_append_singleton sale sales
  unfold Recent.see
  split
  · next before =>
    have less := (Sale.isBefore_iff number latestNumber).1 before
    have upToLatest := le_iff.2 ⟨number, latestNumber, Int.le_of_lt less⟩
    refine ⟨counted, ⟨List.mem_append_left _ latest.1, ?_⟩, ?_, ?_⟩
    · exact List.forall_mem_append.2 ⟨latest.2, List.forall_mem_singleton.2 upToLatest⟩
    · rw [List.filter_append, List.filter_singleton, decide_eq_false (Int.ne_of_lt less)]
      rwa [Bool.cond_false, List.append_nil]
    · rw [List.erase_append_left _ latest.1]
      have others : Sale.AllTimed (sale :: sales.erase recent.latest) := by
        refine List.forall_mem_cons.2 ⟨number, fun other mem => ?_⟩
        exact timed other (List.mem_append_left _ (List.mem_of_mem_erase mem))
      exact (next.cons others).of_perm (List.perm_append_singleton _ _).symm
  · next notBefore =>
    rw [Sale.isBefore_iff number latestNumber] at notBefore
    have after := le_iff.2 ⟨latestNumber, number, Int.not_lt.1 notBefore⟩
    refine ⟨counted, ⟨saleMem, ?_⟩, ?_, ?_⟩
    · have upToSale (other : Sale Binary64) (mem : other ∈ sales) : other.time ≤ sale.time :=
        le_trans (latest.2 other mem) after
      exact List.forall_mem_append.2 ⟨upToSale, List.forall_mem_singleton.2 (le_refl number)⟩
    · rw [List.filter_append, List.filter_singleton, decide_eq_true rfl, Bool.cond_true,
        List.getLast?_concat]
    · have others := moved.erase sale
      rw [List.erase_cons_head] at others
      exact (IsGreatestTime.ofLatest latest).of_perm others.symm

theorem Summarizes.start (number : first.time ≠ nan) :
    Summarizes { count := 1, latest := first, nextTime := none } [first] where
  count := rfl
  latest := ⟨List.mem_cons_self, List.forall_mem_singleton.2 (le_refl number)⟩
  last := by
    rw [List.filter_singleton, decide_eq_true rfl]
    rfl
  next := by
    rw [List.erase_cons_head]
    exact .ofNone

/-- Some more sales, one after the other. -/
theorem Summarizes.foldl {rest : List (Sale Binary64)} (summarizes : Summarizes recent sales)
    (timed : Sale.AllTimed (sales ++ rest)) :
    Summarizes (rest.foldl Recent.see recent) (sales ++ rest) := by
  induction rest generalizing sales recent with
  | nil => rwa [List.append_nil]
  | cons sale rest ih =>
    rw [List.append_cons] at timed ⊢
    have upToSale : Sale.AllTimed (sales ++ [sale]) := fun other mem =>
      timed other (List.mem_append_left _ mem)
    exact ih (summarizes.see upToSale) timed

theorem summarizes_ofSales {rest : List (Sale Binary64)} (timed : Sale.AllTimed (first :: rest)) :
    Summarizes (.ofSales first rest) (first :: rest) :=
  (Summarizes.start (timed first List.mem_cons_self)).foldl timed

/-! ## What is kept determines the epoch -/

theorem Recent.epoch_eq_afterSale (recent : Recent) (config : Config Binary64)
    (nowTime : Binary64) :
    recent.epoch config nowTime =
      .afterSale (Epoch.genesisIndex + recent.count) recent.latest.price recent.latest.time config.k
        config.accrual
        (accrualInterval recent.latest.time (recent.nextTime.or config.openTime)) nowTime := by
  unfold Recent.epoch Epoch.afterSale accrualInterval
  cases config.accrual with
  | none => rfl
  | some accrual =>
    cases recent.nextTime.or config.openTime with
    | none => simp [Epoch.genesisIndex]
    | some priorTime => simp [Epoch.genesisIndex]

/-- Times of the last of some sales in order, and the greatest of their times, are the same. -/
theorem priorTime_of_isGreatestTime (timed : Sale.AllTimed sales) (ordered : Sale.IsOrdered sales)
    (isGreatest : IsGreatestTime sales greatest) :
    Option.Rel SameNumber (priorTime config sales) (greatest.or config.openTime) := by
  cases isGreatest with
  | ofNone =>
    show Option.Rel SameNumber config.openTime config.openTime
    cases config.openTime with
    | none => exact .none
    | some openTime => exact .some (.refl openTime)
  | @ofLatest _ latest isLatest =>
    have nonempty : sales ≠ [] := List.ne_nil_of_mem isLatest.1
    obtain ⟨previous, found⟩ := Sale.exists_getLast?_inOrder nonempty
    have alsoLatest := Sale.isLatest_getLast? timed found
    rw [inOrder_of_isOrdered ordered] at found
    unfold priorTime
    rw [found]
    exact .some ((sameNumber_iff (timed _ alsoLatest.1) (timed _ isLatest.1)).2
      (alsoLatest.position_eq isLatest))

/-- Sorting leaves the sales of the latest time alone, so the last of them stays the last. -/
theorem liveEpoch_of_summarizes (config : Config Binary64) (timed : Sale.AllTimed sales)
    (summarizes : Summarizes recent sales) (nowTime : Binary64) :
    liveEpoch config sales nowTime = some (recent.epoch config nowTime) := by
  obtain ⟨count, latest, isLast, next⟩ := summarizes
  obtain ⟨earlier, last, ordered, live⟩ :=
    exists_liveEpoch_of_ne_nil config (List.ne_nil_of_mem latest.1) nowTime
  have found := List.getLast?_eq_some_iff.2 ⟨earlier, ordered⟩
  have place := (Sale.isLatest_getLast? timed found).position_eq latest
  have same : last = recent.latest := by
    have kept := Sale.filter_inOrder timed recent.latest.time.position
    rw [ordered, List.filter_append, List.filter_singleton, decide_eq_true place] at kept
    rw [← kept, Bool.cond_true, List.getLast?_concat] at isLast
    exact Option.some.inj isLast
  subst same
  have moved : (recent.latest :: earlier).Perm sales := by
    have sorted := Sale.perm_inOrder sales
    rw [ordered] at sorted
    exact (List.perm_append_singleton _ _).symm.trans sorted
  have others : earlier.Perm (sales.erase recent.latest) :=
    (moved.trans (List.perm_cons_erase latest.1)).cons_inv
  have earlierTimed : Sale.AllTimed earlier := fun sale mem =>
    timed sale (moved.mem_iff.1 (List.mem_cons_of_mem _ mem))
  have inOrder : Sale.IsOrdered earlier := by
    have sorted := Sale.pairwise_inOrder timed
    rw [ordered] at sorted
    refine (List.pairwise_append.1 sorted).1.imp_of_mem fun leftMem rightMem positions => ?_
    exact le_iff.2 ⟨earlierTimed _ leftMem, earlierTimed _ rightMem, positions⟩
  have interval := accrualInterval_eq (.refl recent.latest.time)
    (@priorTime_of_isGreatestTime config _ _ earlierTimed inOrder (next.of_perm others.symm))
  rw [live, recent.epoch_eq_afterSale, interval, count]

/-! ## Other sales of which the same is kept -/

theorem filter_sameNumber_eq (timed : Sale.AllTimed sales) {time : Binary64} (number : time ≠ nan) :
    sales.filter (·.time.SameNumber time) = sales.filter (·.time.position = time.position) :=
  List.filter_congr fun sale mem => decide_eq_decide.2 (sameNumber_iff (timed sale mem) number)

/-- Sorting keeps ties. -/
theorem Sale.keepsTies_inOrder (timed : Sale.AllTimed sales) :
    Sale.KeepsTies (Sale.inOrder sales) sales := by
  intro sale mem
  have number := timed sale mem
  rw [filter_sameNumber_eq (timed.of_perm (Sale.perm_inOrder sales)) number,
    filter_sameNumber_eq timed number, Sale.filter_inOrder timed]

theorem Summarizes.of_keepsTies (summarizes : Summarizes recent sales) (timed : Sale.AllTimed sales)
    (reordered : other.Perm sales) (keeps : Sale.KeepsTies other sales) :
    Summarizes recent other := by
  obtain ⟨count, latest, last, next⟩ := summarizes
  refine ⟨?_, latest.of_perm reordered.symm, ?_, next.of_perm (reordered.erase _).symm⟩
  · rw [count, reordered.length_eq]
  · have number := timed _ latest.1
    have ties := keeps recent.latest latest.1
    rw [filter_sameNumber_eq (timed.of_perm reordered) number, filter_sameNumber_eq timed number]
      at ties
    rwa [ties]

theorem le_of_isBefore {later : Sale Binary64} (before : sale.isBefore later = true) :
    sale.time ≤ later.time := by
  obtain ⟨number, laterNumber, less⟩ := lt_iff.1 (of_decide_eq_true before)
  exact le_iff.2 ⟨number, laterNumber, Int.le_of_lt less⟩

/-- A sale before the two latest is counted and nothing else. -/
theorem Summarizes.insert (summarizes : Summarizes recent (front ++ back))
    (early : 2 ≤ (front ++ back).countP sale.isBefore) :
    Summarizes { recent with count := recent.count + 1 } (front ++ sale :: back) := by
  obtain ⟨count, latest, last, next⟩ := summarizes
  have moved : (front ++ sale :: back).Perm (sale :: (front ++ back)) := List.perm_middle
  have counts := (List.perm_cons_erase latest.1).countP_eq sale.isBefore
  have left : 0 < ((front ++ back).erase recent.latest).countP sale.isBefore := by
    rw [List.countP_cons] at counts
    split at counts <;> omega
  obtain ⟨second, secondMem, beforeSecond⟩ := List.countP_pos_iff.1 left
  obtain ⟨time, isNext, upTo⟩ := next.exists_le secondMem
  have upToSecond := le_of_isBefore beforeSecond
  have secondUpTo := latest.2 second (List.mem_of_mem_erase secondMem)
  have elsewhere : sale.time.position ≠ recent.latest.time.position := by
    have less := (lt_iff.1 (of_decide_eq_true beforeSecond)).2.2
    have reached := (le_iff.1 secondUpTo).2.2
    omega
  have apart : sale ≠ recent.latest := by
    rintro rfl
    exact elsewhere rfl
  refine ⟨?_, ?_, ?_, ?_⟩
  · rw [moved.length_eq, List.length_cons, ← count]
  · have stillLatest : Sale.IsLatest (sale :: (front ++ back)) recent.latest :=
      ⟨List.mem_cons_of_mem _ latest.1,
        List.forall_mem_cons.2 ⟨le_trans upToSecond secondUpTo, latest.2⟩⟩
    exact stillLatest.of_perm moved.symm
  · rwa [List.filter_append, List.filter_cons_of_neg (by simpa using elsewhere),
      ← List.filter_append]
  · have others := moved.erase recent.latest
    rw [List.erase_cons_tail (by simpa using apart)] at others
    rw [isNext] at next ⊢
    exact (next.cons_of_le (le_trans upToSecond upTo)).of_perm others.symm

/-- The epoch that sales open is the one of a single pass over them. It stays the same in an order
that keeps the sales of each moment in theirs, and a sale before the two latest changes its number
alone. -/
theorem liveEpoch_onePass (config : Config Binary64) {rest : List (Sale Binary64)}
    (timed : Sale.AllTimed (first :: rest)) (nowTime : Binary64) :
    liveEpoch config (first :: rest) nowTime =
        some ((Recent.ofSales first rest).epoch config nowTime) ∧
      (∀ other : List (Sale Binary64), other.Perm (first :: rest) →
        Sale.KeepsTies other (first :: rest) →
        liveEpoch config other nowTime = liveEpoch config (first :: rest) nowTime) ∧
      ∀ (front back : List (Sale Binary64)) (sale : Sale Binary64), front ++ back = first :: rest →
        2 ≤ (first :: rest).countP sale.isBefore →
        liveEpoch config (front ++ sale :: back) nowTime =
          (liveEpoch config (first :: rest) nowTime).map fun epoch =>
            { epoch with index := epoch.index + 1 } := by
  have summarizes := summarizes_ofSales timed
  have live := liveEpoch_of_summarizes config timed summarizes nowTime
  refine ⟨live, ?_, ?_⟩
  · intro other reordered keeps
    rw [live]
    exact liveEpoch_of_summarizes config (timed.of_perm reordered)
      (summarizes.of_keepsTies timed reordered keeps) nowTime
  · intro front back sale split early
    rw [← split] at summarizes early timed
    obtain ⟨later, _, before⟩ := List.countP_pos_iff.1 (Nat.zero_lt_of_lt early)
    have insertedTimed : Sale.AllTimed (front ++ sale :: back) := by
      intro other mem
      rcases List.mem_cons.1 (List.perm_middle.mem_iff.1 mem) with rfl | inSales
      · exact (ne_nan_of_le (le_of_isBefore before)).1
      · exact timed other inSales
    rw [live, liveEpoch_of_summarizes config insertedTimed (summarizes.insert early) nowTime,
      Option.map_some]
    simp only [Recent.epoch, Int.natCast_add, Int.natCast_one, Int.add_assoc]

/-- Two sales of one moment at two prices, and earlier ones after each of them. -/
def scatteredSales : List (Sale Binary64) :=
  [{ time := ofNat 30, price := ofNat 9 }, { time := ofNat 10, price := ofNat 8 },
    { time := ofNat 30, price := ofNat 7 }, { time := ofNat 20, price := ofNat 6 }]

/-- The epoch that the second of them opens. -/
def scatteredEpoch : Epoch Binary64 where
  index := 5
  floor := ofNat 7
  k := ofNat 100
  premiumRate := some (ofNat 2)
  startTime := ofNat 30
  nowTime := ofNat 40

theorem liveEpoch_onePass_scattered :
    Sale.AllTimed scatteredSales ∧
      liveEpoch openingConfig scatteredSales (ofNat 40) = some scatteredEpoch ∧
      liveEpoch openingConfig (Sale.inOrder scatteredSales) (ofNat 40) = some scatteredEpoch ∧
      liveEpoch openingConfig ({ time := ofNat 25, price := ofNat 1 } :: scatteredSales) (ofNat 40) =
        some { scatteredEpoch with index := 6 } := by
  have timed : Sale.AllTimed scatteredSales := by decide +kernel
  obtain ⟨live, reordered, inserted⟩ := liveEpoch_onePass openingConfig timed (ofNat 40)
  have passed : liveEpoch openingConfig scatteredSales (ofNat 40) = some scatteredEpoch := by
    refine live.trans ?_
    decide +kernel
  refine ⟨timed, passed, ?_, ?_⟩
  · have keeps := Sale.keepsTies_inOrder timed
    exact (reordered _ (Sale.perm_inOrder _) keeps).trans passed
  · refine (inserted [] scatteredSales _ rfl (by decide +kernel)).trans ?_
    rw [show _ :: _ = scatteredSales from rfl, passed]
    rfl

end HyperbolicAuction
