import HyperbolicAuction.Proofs.Simulation.Replay

/-!
# Shorter histories begin longer ones

A sale depends on the sales before it and on the intervals drawn up to it, and never on how many are
still to come. A simulator that is asked for fewer sales therefore makes the same ones, in the same
epochs, and stops earlier. A fixed count draws nothing itself, so both simulators begin with the same
state of the generator if they have the same seed.

`Begins` is what each further sale keeps of a history; `extend_begins` says it of any number of
further sales, and `exists_extend_of_le` that fewer of them are made as well.

Main statement: `run_begins`.
-/

namespace HyperbolicAuction

open Simulation

namespace SimulatedRun

/-- A history is the beginning of another one. -/
structure Begins (short long : SimulatedRun) : Prop where
  sales : short.sales <+: long.sales
  epochs : short.epochs <+: long.epochs

/-- A history has so many sales, and an epoch for each. -/
structure HasLength (run : SimulatedRun) (count : Nat) : Prop where
  sales : run.sales.length = count
  epochs : run.epochs.length = count

variable {config : Config Binary64} {time : Binary64} {interval : Raw} {buyer : String}
  {run next short long : SimulatedRun} {before after : Random.Generator} {count fewer length : Nat}

theorem Begins.refl (run : SimulatedRun) : Begins run run :=
  ⟨List.prefix_refl _, List.prefix_refl _⟩

theorem Begins.trans {middle : SimulatedRun} (first : Begins short middle)
    (second : Begins middle long) : Begins short long :=
  ⟨first.sales.trans second.sales, first.epochs.trans second.epochs⟩

theorem begins_record (run : SimulatedRun) (epoch : Epoch Binary64) (sale : Sale Binary64) :
    Begins run (run.record epoch sale) :=
  ⟨List.prefix_append .., List.prefix_append ..⟩

theorem hasLength_empty : HasLength {} 0 := ⟨rfl, rfl⟩

/-- The beginning of a history that has so many sales is made of its first ones. -/
theorem Begins.eq_take (begins : Begins short long) (hasLength : HasLength short count) :
    short.sales = long.sales.take count ∧ short.epochs = long.epochs.take count := by
  have sales := List.prefix_iff_eq_take.1 begins.sales
  have epochs := List.prefix_iff_eq_take.1 begins.epochs
  rw [hasLength.sales] at sales
  rw [hasLength.epochs] at epochs
  exact ⟨sales, epochs⟩

/-! ## One sale -/

theorem settle_begins (settled : Simulator.settle config buyer time run = .ok next) :
    Begins run next := by
  obtain ⟨epoch, price, _, _, rfl⟩ := settle_cases settled
  exact begins_record run epoch _

theorem settle_hasLength (hasLength : HasLength run length)
    (settled : Simulator.settle config buyer time run = .ok next) :
    HasLength next (length + 1) := by
  obtain ⟨epoch, price, _, _, rfl⟩ := settle_cases settled
  constructor
  · simp [record, hasLength.sales]
  · simp [record, hasLength.epochs]

/-- An interval that is drawn and a sale that is settled are the beginning of an extension. -/
theorem run_extend_succ {seconds : Binary64} {between : Random.Generator}
    (drawn : (Simulator.drawInterval interval).run before = (.ok seconds, between))
    (settled : Simulator.settle config buyer (time + seconds) run = .ok next) :
    (Simulator.extend config interval buyer (count + 1) time run).run before =
      (Simulator.extend config interval buyer count (time + seconds) next).run between := by
  rw [Simulator.extend, Drawing.run_bind_of_ok drawn]
  dsimp only
  rw [settled]

/-! ## Further sales -/

theorem extend_begins (returned :
    (Simulator.extend config interval buyer count time run).run before = (.ok long, after)) :
    Begins run long := by
  induction count generalizing time run before with
  | zero =>
    rw [← Drawing.of_pure returned]
    exact .refl run
  | succ count ih =>
    obtain ⟨seconds, between, next, _, settled, rest⟩ := extend_succ_cases returned
    exact (settle_begins settled).trans (ih rest)

/-- Where a number of further sales is made, fewer are made as well, and they are the first of them. -/
theorem exists_extend_of_le (le : fewer ≤ count) (hasLength : HasLength run length)
    (returned :
      (Simulator.extend config interval buyer count time run).run before = (.ok long, after)) :
    ∃ short between,
      (Simulator.extend config interval buyer fewer time run).run before = (.ok short, between) ∧
        Begins short long ∧ HasLength short (length + fewer) := by
  induction fewer generalizing count time run before length with
  | zero => exact ⟨run, before, rfl, extend_begins returned, hasLength⟩
  | succ fewer ih =>
    obtain ⟨others, rfl⟩ := Nat.exists_eq_add_of_le' (Nat.le_trans (Nat.le_add_left 1 fewer) le)
    obtain ⟨seconds, between, next, drawn, settled, rest⟩ := extend_succ_cases returned
    obtain ⟨short, reached, extended, begins, longer⟩ :=
      ih (Nat.le_of_succ_le_succ le) (settle_hasLength hasLength settled) rest
    rw [Nat.add_right_comm] at longer
    exact ⟨short, reached, (run_extend_succ drawn settled).trans extended, begins, longer⟩

end SimulatedRun

/-! ## Runs -/

variable {simulator drawn : Simulator} {interval : Raw} {buyer : String} {long : SimulatedRun}
  {fewer count : Int}

theorem run_of_draws {sales : Raw} {run : SimulatedRun} {generator : Random.Generator}
    (returned : (Simulator.draws simulator.config sales interval buyer).run simulator.generator =
      (.ok run, generator)) :
    simulator.run sales interval buyer = (.ok run, { simulator with generator }) := by
  unfold Simulator.run
  rw [returned]

/-- A fixed count that is not negative draws nothing, and is the number of sales to be made. -/
theorem draws_int {config : Config Binary64} {openTime : Binary64} (nonneg : 0 ≤ count)
    (opens : config.openTime = some openTime) :
    Simulator.draws config (.int count) interval buyer =
      Simulator.extend config interval buyer count.toNat openTime {} := by
  have notNegative : ¬ count < 0 := by omega
  have asked : draw (.int count) = pure count := rfl
  simp [Simulator.draws, asked, notNegative, opens]

theorem run_of_negative (negative : count < 0) :
    simulator.run (.int count) interval buyer = (.error (.negativeCount count), simulator) := by
  have asked : draw (.int count) = pure count := rfl
  unfold Simulator.run Simulator.draws
  rw [asked, pure_bind, if_pos negative]
  rfl

/-- Of two fixed counts, the lesser one gives the first sales and epochs of the greater one, whatever
the auction, the intervals and the state of the generator. A negative count is refused. -/
theorem run_begins (le : fewer ≤ count)
    (returned : simulator.run (.int count) interval buyer = (.ok long, drawn)) :
    (0 ≤ fewer → ∃ short reached,
      simulator.run (.int fewer) interval buyer = (.ok short, reached) ∧
        short.sales.length = fewer ∧ short.sales = long.sales.take fewer.toNat ∧
        short.epochs = long.epochs.take fewer.toNat) ∧
    (fewer < 0 →
      simulator.run (.int fewer) interval buyer = (.error (.negativeCount fewer), simulator)) := by
  refine ⟨fun nonneg => ?_, run_of_negative⟩
  obtain ⟨_, _, openTime, asked, _, opens, extended⟩ :=
    SimulatedRun.draws_cases (draws_of_run returned)
  cases asked
  obtain ⟨short, reached, shorter, begins, hasLength⟩ :=
    SimulatedRun.exists_extend_of_le (Int.toNat_le_toNat le) SimulatedRun.hasLength_empty
      extended
  rw [← draws_int nonneg opens] at shorter
  rw [Nat.zero_add] at hasLength
  refine ⟨short, _, run_of_draws shorter, ?_, begins.eq_take hasLength⟩
  rw [hasLength.sales, Int.toNat_of_nonneg nonneg]

theorem run_begins_opening : ∃ short long reached drawn,
    openingSimulator.run (.int 2) (.tuple [.int 3, .int 9]) = (.ok long, drawn) ∧
    openingSimulator.run (.int 1) (.tuple [.int 3, .int 9]) = (.ok short, reached) ∧
    short.sales.length = 1 ∧ short.sales = long.sales.take 1 ∧
    short.epochs = long.epochs.take 1 := by
  have succeeds : (openingSimulator.run (.int 2) (.tuple [.int 3, .int 9])).1.toBool = true := by
    decide +kernel
  cases ran : openingSimulator.run (.int 2) (.tuple [.int 3, .int 9]) with
  | mk outcome drawn =>
    rw [ran] at succeeds
    obtain ⟨long, rfl⟩ := Outcome.exists_of_toBool succeeds
    obtain ⟨short, reached, shorter, length, sales, epochs⟩ :=
      (run_begins (show (1 : Int) ≤ 2 by decide) ran).1 (by decide)
    exact ⟨short, long, reached, drawn, rfl, shorter, Int.ofNat.inj length, sales, epochs⟩

end HyperbolicAuction
