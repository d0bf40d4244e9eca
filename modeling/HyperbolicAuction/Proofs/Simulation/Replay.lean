import HyperbolicAuction.Proofs.Simulation.History

/-!
# Simulated histories are replayed by evaluations

A simulated buyer pays the ask of the epoch in force after the sales before. An auction that is
evaluated on those sales, at the time of the purchase, is therefore found in the very epoch that was
recorded with the sale, and at the very price: the history is replayed sale by sale. Only an epoch
that defines no curve is simulated and not priced.

`IsReplayed` is what each further sale keeps: `isReplayed_settle`, `isReplayed_extend`.

Main statement: `run_isReplayed`.
-/

namespace HyperbolicAuction

open Binary64 Simulation

namespace SimulatedRun

/-- The sale of each index is made at the ask of its epoch, and that is the epoch in force after the
sales before, at the time of the sale. -/
structure IsReplayed (config : Config Binary64) (run : SimulatedRun) : Prop where
  paired : run.sales.length = run.epochs.length
  live : ∀ (index : Nat) (epoch : Epoch Binary64) (sale : Sale Binary64),
    run.epochs[index]? = some epoch → run.sales[index]? = some sale →
      liveEpoch config (run.sales.take index) sale.time = some epoch
  asks : ∀ (index : Nat) (epoch : Epoch Binary64) (sale : Sale Binary64),
    run.epochs[index]? = some epoch → run.sales[index]? = some sale →
      epoch.askNow = .ok sale.price

variable {config : Config Binary64} {time : Binary64} {interval : Raw} {buyer : String}
  {run next : SimulatedRun} {before after : Random.Generator}

theorem isReplayed_empty (config : Config Binary64) : IsReplayed config {} where
  paired := rfl
  live := fun _ _ _ found => nomatch found
  asks := fun _ _ _ found => nomatch found

/-- The sales before an index are the same after a further sale. -/
theorem take_record {index : Nat} (inside : index ≤ run.sales.length) (epoch : Epoch Binary64)
    (sale : Sale Binary64) :
    (run.record epoch sale).sales.take index = run.sales.take index :=
  List.take_append_of_le_length inside

/-- A further sale at the ask of the epoch in force is replayed, and so are all before it. -/
theorem isReplayed_settle (replayed : IsReplayed config run)
    (settled : Simulator.settle config buyer time run = .ok next) : IsReplayed config next := by
  obtain ⟨newEpoch, price, live, asks, rfl⟩ := settle_cases settled
  constructor
  · show (run.sales ++ [_]).length = (run.epochs ++ [_]).length
    rw [List.length_append, List.length_append, replayed.paired]
    rfl
  · intro index epoch sale epochAt saleAt
    rcases record_cases replayed.paired epochAt saleAt with
      ⟨epochBefore, saleBefore⟩ | ⟨isLast, isEpoch, isSale⟩
    · have inside := (List.getElem?_eq_some_iff.1 saleBefore).1
      rw [take_record (Nat.le_of_lt inside)]
      exact replayed.live index epoch sale epochBefore saleBefore
    · rw [isLast, isEpoch, isSale, take_record (Nat.le_refl _), List.take_length]
      exact live
  · intro index epoch sale epochAt saleAt
    rcases record_cases replayed.paired epochAt saleAt with
      ⟨epochBefore, saleBefore⟩ | ⟨_, isEpoch, isSale⟩
    · exact replayed.asks index epoch sale epochBefore saleBefore
    · rw [isEpoch, isSale]
      exact asks

/-- Further sales are replayed as well, whatever the intervals between them. -/
theorem isReplayed_extend {count : Nat} {extended : SimulatedRun}
    (replayed : IsReplayed config run)
    (returned : (Simulator.extend config interval buyer count time run).run before =
      (.ok extended, after)) : IsReplayed config extended := by
  induction count generalizing time run before with
  | zero =>
    have same := Drawing.of_pure returned
    rw [← same]
    exact replayed
  | succ count ih =>
    obtain ⟨seconds, between, next, _, settled, rest⟩ := extend_succ_cases returned
    exact ih (isReplayed_settle replayed settled) rest

theorem isReplayed_draws {sales : Raw}
    (returned : (Simulator.draws config sales interval buyer).run before = (.ok run, after)) :
    IsReplayed config run := by
  obtain ⟨count, between, openTime, _, _, _, extended⟩ := draws_cases returned
  exact isReplayed_extend (isReplayed_empty config) extended

end SimulatedRun

variable {simulator drawn : Simulator} {sales interval : Raw} {buyer : String} {run : SimulatedRun}

/-- What a simulator returns is what its draws return. -/
theorem draws_of_run (returned : simulator.run sales interval buyer = (.ok run, drawn)) :
    (Simulator.draws simulator.config sales interval buyer).run simulator.generator =
      (.ok run, drawn.generator) := by
  unfold Simulator.run at returned
  generalize (Simulator.draws simulator.config sales interval buyer).run simulator.generator =
    result at returned ⊢
  obtain ⟨outcome, reached⟩ := result
  cases returned
  rfl

/-- An evaluation in an epoch whose ask is known shows that epoch and that ask, or has no ask since
the epoch defines no curve. -/
theorem ofAuction_of_askNow {settings : Settings Binary64} {config : Config Binary64}
    {history : List (Sale Binary64)} {time price : Binary64} {requested : Option Binary64}
    {asked : Option Int} {epoch : Epoch Binary64} {snapshot : Snapshot Binary64}
    (live : liveEpoch config history time = some epoch) (asks : epoch.askNow = .ok price)
    (returned : Snapshot.ofAuction settings (some config) history time requested asked =
      .ok snapshot) :
    snapshot.epoch = some epoch ∧
      (snapshot.status = .invalidConfig ∧ snapshot.ask = none ∨
        (snapshot.status = .noCurve ∨ snapshot.status = .success) ∧
          snapshot.ask = some price) := by
  rw [ofAuction_of_liveEpoch live] at returned
  obtain ⟨shown, ⟨_, status, unpriced⟩ | ⟨_, _, status, found, priced, asksToo⟩⟩ :=
    Snapshot.ofEpoch_cases returned
  · exact ⟨shown, .inl ⟨status, unpriced⟩⟩
  · rw [asks] at asksToo
    cases asksToo
    refine ⟨shown, .inr ⟨?_, priced⟩⟩
    rw [status]
    split
    · exact .inl rfl
    · exact .inr rfl

/-- Every sale of a simulated history has an epoch, which is the one in force after the sales before
it, at its time. An evaluation there under any settings, of any window and any number of segments,
shows that epoch and asks the price of the sale; without a curve it asks nothing. -/
theorem run_isReplayed (simulator : Simulator) (sales interval : Raw) (buyer : String)
    {run : SimulatedRun} {drawn : Simulator}
    (returned : simulator.run sales interval buyer = (.ok run, drawn)) {index : Nat}
    {sale : Sale Binary64} (saleAt : run.sales[index]? = some sale) :
    ∃ epoch, run.epochs[index]? = some epoch ∧
      liveEpoch simulator.config (run.sales.take index) sale.time = some epoch ∧
      ∀ settings requested asked snapshot,
        Snapshot.ofAuction settings (some simulator.config) (run.sales.take index) sale.time
            requested asked = .ok snapshot →
          snapshot.epoch = some epoch ∧ snapshot.status ≠ .noConfig ∧
          snapshot.status ≠ .noSales ∧
          (snapshot.status ≠ .invalidConfig ∧ snapshot.ask = some sale.price ∨
            snapshot.status = .invalidConfig ∧ snapshot.ask = none) := by
  have replayed := SimulatedRun.isReplayed_draws (draws_of_run returned)
  have inside : index < run.epochs.length := by
    rw [← replayed.paired]
    exact (List.getElem?_eq_some_iff.1 saleAt).1
  have epochAt := List.getElem?_eq_getElem inside
  have live := replayed.live index _ sale epochAt saleAt
  have asks := replayed.asks index _ sale epochAt saleAt
  refine ⟨_, epochAt, live, ?_⟩
  intro settings requested asked snapshot evaluated
  obtain ⟨shown, ⟨status, unpriced⟩ | ⟨status, priced⟩⟩ := ofAuction_of_askNow live asks evaluated
  · refine ⟨shown, ?_, ?_, .inr ⟨status, unpriced⟩⟩
    · simp [status]
    · simp [status]
  · have evaluatedTo : snapshot.status ≠ .noConfig ∧ snapshot.status ≠ .noSales ∧
        snapshot.status ≠ .invalidConfig := by
      rcases status with noCurve | success
      · simp [noCurve]
      · simp [success]
    exact ⟨shown, evaluatedTo.1, evaluatedTo.2.1, .inl ⟨evaluatedTo.2.2, priced⟩⟩

theorem run_isReplayed_opening : ∃ run drawn epoch sale snapshot,
    openingSimulator.run (.int 2) (.int 5) = (.ok run, drawn) ∧
    run.epochs[1]? = some epoch ∧ run.sales[1]? = some sale ∧
    Snapshot.ofAuction .standard (some openingConfig) (run.sales.take 1) sale.time none (some 1) =
      .ok snapshot ∧
    snapshot.epoch = some epoch ∧ snapshot.ask = some sale.price := by
  have succeeds : ((openingSimulator.run (.int 2) (.int 5)).1.toOption.bind fun run =>
      run.sales[1]?.map fun sale => ((Snapshot.ofAuction .standard (some openingConfig)
        (run.sales.take 1) sale.time none (some 1)).map (·.status)).toOption) =
      some (some .success) := by
    decide +kernel
  cases ran : openingSimulator.run (.int 2) (.int 5) with
  | mk outcome drawn =>
    rw [ran] at succeeds
    cases outcome with
    | error error => cases succeeds
    | ok run =>
      cases saleAt : run.sales[1]? with
      | none => simp [saleAt, Except.toOption] at succeeds
      | some sale =>
        cases evaluated : Snapshot.ofAuction .standard (some openingConfig) (run.sales.take 1)
          sale.time none (some 1) with
        | error error => simp [saleAt, evaluated, Except.toOption, Except.map] at succeeds
        | ok snapshot =>
          have status : snapshot.status = .success := by
            simpa [saleAt, evaluated, Except.toOption, Except.map] using succeeds
          obtain ⟨epoch, epochAt, _, replays⟩ :=
            run_isReplayed openingSimulator (.int 2) (.int 5) Simulator.standardBuyer ran saleAt
          obtain ⟨shown, _, _, ⟨_, priced⟩ | ⟨invalid, _⟩⟩ :=
            replays .standard none (some 1) snapshot evaluated
          · exact ⟨run, drawn, epoch, sale, snapshot, rfl, epochAt, saleAt, evaluated, shown, priced⟩
          · rw [status] at invalid
            cases invalid

end HyperbolicAuction
