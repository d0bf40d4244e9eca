import HyperbolicAuction.Auction.Basic
import HyperbolicAuction.Binary64.Basic
import HyperbolicAuction.Simulation.Draw

/-!
# Simulated sale histories

A simulated buyer waits and then pays the ask of the epoch in force; the sale opens the next epoch.
The epoch is derived each time from the whole history, as it is for a real auction.
-/

namespace HyperbolicAuction

/-- A source of simulated histories for one auction. -/
structure Simulator where
  config : Config Binary64
  generator : Random.Generator
deriving DecidableEq

/-- Simulated sales, and for each the epoch in which it was made. -/
structure SimulatedRun where
  sales : List (Sale Binary64) := []
  epochs : List (Epoch Binary64) := []
deriving DecidableEq

namespace SimulatedRun

/-- The floors of the epochs. -/
def floors (run : SimulatedRun) : List Binary64 := run.epochs.map (·.floor)

/-- The epoch of the last sale. -/
def finalEpoch? (run : SimulatedRun) : Option (Epoch Binary64) := run.epochs.getLast?

/-- A run with one more sale. -/
def record (run : SimulatedRun) (epoch : Epoch Binary64) (sale : Sale Binary64) : SimulatedRun where
  sales := run.sales ++ [sale]
  epochs := run.epochs ++ [epoch]

end SimulatedRun

namespace Simulator

open Simulation

/-- The buyer of simulated sales, where none is named. -/
def standardBuyer : String :=
  "0xBEEF000000000000000000000000000000000000000000000000000000000000"

/-- The simulator of an auction. What accrues, the genesis premium and the decay have to be above
zero, and the opening known. Without a seed the generator starts from zero. -/
def ofConfig (config : Config Binary64) (seed : Option Int) : Except SimulationError Simulator := do
  if config.accrual.all (· ≤ 0) then throw .needsAccrual
  if config.genesisPremium.isNone then throw .needsGenesisPremium
  if config.openTime.isNone then throw .needsOpenTime
  if config.k ≤ 0 then throw .needsDecay
  if seed.any (· < 0) then throw .negativeSeed
  return { config, generator := .ofSeed (seed.getD 0).toNat }

/-- The seconds to the next sale. -/
def drawInterval (interval : Raw) : Drawing Binary64 := do
  let seconds ← draw interval
  if seconds ≤ 0 then throw (.intervalNotPositive seconds)
  match Binary64.ofInt? seconds with
  | some seconds => return seconds
  | none => throw (.amount .beyondBinary64)

/-- The sale made at a time in the epoch in force after a run. -/
def settle (config : Config Binary64) (buyer : String) (time : Binary64) (run : SimulatedRun) :
    Except SimulationError SimulatedRun :=
  match liveEpoch config run.sales time with
  | none => .error .needsGenesisPremium
  | some epoch =>
    match epoch.askNow with
    | .error error => .error (.arithmetic error)
    | .ok price =>
      .ok (run.record epoch
        { time, price, buyer := some buyer, tokenId := some run.sales.length })

/-- A run with so many more sales, the last of which was made at a time. -/
def extend (config : Config Binary64) (interval : Raw) (buyer : String) :
    Nat → Binary64 → SimulatedRun → Drawing SimulatedRun
  | 0, _, run => pure run
  | sales + 1, time, run => do
    let next := time + (← drawInterval interval)
    match settle config buyer next run with
    | .error error => throw error
    | .ok settled => extend config interval buyer sales next settled

/-- A history from the opening of the auction. -/
def draws (config : Config Binary64) (sales interval : Raw) (buyer : String) :
    Drawing SimulatedRun := do
  let count ← draw sales
  if count < 0 then throw (.negativeCount count)
  match config.openTime with
  | none => throw .needsOpenTime
  | some openTime => extend config interval buyer count.toNat openTime {}

/-- A history, and the simulator after its draws. -/
def run (simulator : Simulator) (sales interval : Raw) (buyer : String := standardBuyer) :
    Except SimulationError SimulatedRun × Simulator :=
  let (result, generator) := (draws simulator.config sales interval buyer).run simulator.generator
  (result, { simulator with generator })

end Simulator

end HyperbolicAuction
