import HyperbolicAuction.Settings.Sources
import HyperbolicAuction.Simulation.Basic
import HyperbolicAuction.Snapshot.Basic

/-!
# Sessions

A session follows one auction. It holds the settings in force, what is known of the auction, the
snapshot that was taken last, and a simulator once one is set up; its surroundings and the shared
settings are those that later settings are read from.

A step fails for a cause of the part that it works with, or because the session does not have that
part yet. A step that fails changes nothing: `attempt_of_error`. A simulation is the one exception,
since the draws it made stay made.
-/

namespace HyperbolicAuction

/-! ## Errors -/

/-- What is asked of a part that a session does not have. -/
inductive MissingPart where
  | curve
  | simulator
  | genesisPremium
  | openTime
  | decay
  | accrual
deriving DecidableEq, Repr

namespace MissingPart

/-- The name under which a part is asked for. -/
def name : MissingPart → String
  | curve => "lookup"
  | simulator => "run"
  | genesisPremium => "genesis_premium"
  | openTime => "open_time_sec"
  | decay => "k"
  | accrual => "pts"

/-- The kind of the cause. -/
def kind (_ : MissingPart) : ErrorKind := .missingPart

/-- The text of the cause. -/
def message (part : MissingPart) : String :=
  "'" ++ Raw.null.typeName ++ "' object has no attribute '" ++ part.name ++ "'"

end MissingPart

/-- Why a step of a session fails. -/
inductive SessionError where
  | settings (error : SettingsError)
  | amount (error : AmountError)
  | arithmetic (error : ArithmeticError)
  | simulation (error : SimulationError)
  | missing (part : MissingPart)

/-! ## Sessions -/

/-- What a session holds. -/
structure Session where
  surroundings : Surroundings := {}
  shared : SettingsCache := {}
  /-- The settings in force. -/
  settings : Settings Binary64
  config : Option (Config Binary64) := none
  /-- The sales in the order in which they became known. -/
  sales : List (Sale Binary64) := []
  /-- The snapshot that was taken last. -/
  snapshot : Option (Snapshot Binary64) := none
  simulator : Option Simulator := none
deriving DecidableEq

namespace Session

/-- A step of a session. -/
abbrev Step (α : Type) := StateT Session (Except SessionError) α

/-- The result of a step, and the session after it. -/
def attempt {α : Type} (step : Step α) (session : Session) : Except SessionError α × Session :=
  match step.run session with
  | .ok (result, next) => (.ok result, next)
  | .error error => (.error error, session)

theorem attempt_of_error {α : Type} {step : Step α} {session : Session} {error : SessionError}
    (failed : step.run session = .error error) :
    attempt step session = (.error error, session) := by
  simp [attempt, failed]

/-- A result that is an error of a part. -/
def orFail {α ε : Type} (cause : ε → SessionError) : Except ε α → Step α
  | .ok result => pure result
  | .error error => throw (cause error)

/-! ## Settings -/

/-- The shared settings, and the cache that holds them; or the settings that are defined with the
arguments, if there are any. -/
def settingsFrom (arguments : Option (List (String × Raw))) (surroundings : Surroundings)
    (shared : SettingsCache) : Except SettingsError (Settings Binary64 × SettingsCache) :=
  match arguments with
  | some arguments => do
    return (← (surroundings.sources arguments).settings, shared)
  | none =>
    match shared.get surroundings with
    | (.ok settings, shared) => .ok (settings, shared)
    | (.error error, _) => .error error

/-- A new session. It does not ask for the shared settings. -/
def start (arguments : List (String × Raw)) (config : Option (Config Binary64))
    (surroundings : Surroundings := {}) : Except SettingsError Session := do
  return { surroundings, settings := ← (surroundings.sources arguments).settings, config }

/-- Puts other settings in force. -/
def useSettings (arguments : Option (List (String × Raw))) : Step (Settings Binary64) := do
  let session ← get
  let (settings, shared) ←
    orFail .settings (settingsFrom arguments session.surroundings session.shared)
  set { session with settings, shared }
  return settings

/-- The shared settings, which need not be in force. -/
def sharedSettings : Step (Settings Binary64) := do
  let session ← get
  let (settings, shared) ← orFail .settings (settingsFrom none session.surroundings session.shared)
  set { session with shared }
  return settings

/-- Drops the shared settings. -/
def clearShared : Step Unit :=
  modify fun session => { session with shared := session.shared.clear }

/-- Replaces the environment by one that is made of it. -/
def changeEnvironment (change : Environment → Environment) : Step Unit :=
  modify fun session =>
    { session with surroundings.environment := change session.surroundings.environment }

/-- Sets variables of the environment. -/
def setVariables (entries : List (String × String)) : Step Unit :=
  changeEnvironment (Entries.setAll · entries)

/-- Removes variables from the environment. -/
def unsetVariables (names : List String) : Step Unit :=
  changeEnvironment (names.foldl Entries.unset ·)

/-! ## The auction -/

/-- Replaces what is known of the auction. -/
def setConfig (config : Option (Config Binary64)) : Step Unit :=
  modify fun session => { session with config }

/-- Adds sales to those that are known. -/
def addSales (sales : List (Sale Binary64)) : Step Unit :=
  modify fun session => { session with sales := session.sales ++ sales }

/-- Keeps so many of the sales that became known first. -/
def keepSales (count : Nat) : Step Unit :=
  modify fun session => { session with sales := session.sales.take count }

/-- Replaces the configuration by one from raw values. -/
def readConfig (data : Raw) : Step (Config Binary64) := do
  let config ← orFail .amount (Config.ofRaw data (← get).settings.tokenDecimals)
  setConfig (some config)
  return config

/-- Adds a sale from raw values. -/
def readSale (time price : Raw) (buyer : Option String) (tokenId : Raw) :
    Step (Sale Binary64) := do
  let sale ← orFail .amount
    (Sale.ofRaw time price (← get).settings.tokenDecimals buyer tokenId)
  addSales [sale]
  return sale

/-! ## Evaluation -/

/-- The first part of a missing configuration that an epoch is derived from. -/
def firstMissing (sales : List (Sale Binary64)) : MissingPart :=
  match sales with
  | [] => .genesisPremium
  | [_] => .openTime
  | _ => .decay

/-- The live epoch at a moment. -/
def epoch (nowTime : Binary64) : Step (Option (Epoch Binary64)) := do
  let session ← get
  match session.config with
  | some config => return liveEpoch config session.sales nowTime
  | none => throw (.missing (firstMissing session.sales))

/-- The snapshot at a moment of the auction with some of its sales. -/
def observe (session : Session) (sales : List (Sale Binary64)) (nowTime : Binary64)
    (requested : Option Binary64) (steps : Option Int) : Step (Snapshot Binary64) :=
  orFail .arithmetic
    (Snapshot.ofAuction session.settings session.config sales nowTime requested steps)

/-- Takes a snapshot, and keeps it. Where a count is given, so many of the first sales count. -/
def evaluate (nowTime : Binary64) (requested : Option Binary64) (steps : Option Int)
    (count : Option Nat) : Step (Snapshot Binary64) := do
  let session ← get
  let sales := count.elim session.sales session.sales.take
  let snapshot ← session.observe sales nowTime requested steps
  set { session with snapshot := some snapshot }
  return snapshot

/-- The curve of the snapshot that was taken last. -/
def curve : Step (Lookup Binary64) := do
  match (← get).snapshot with
  | some snapshot => return snapshot.lookup
  | none => throw (.missing .curve)

/-- Buys at the ask of a moment, if there is one. -/
def buy (nowTime : Binary64) : Step (Snapshot Binary64) := do
  let session ← get
  let snapshot ← session.observe session.sales nowTime none (some 1)
  addSales (snapshot.ask.toList.map fun price => { time := nowTime, price })
  return snapshot

/-! ## Simulation -/

/-- Sets up a simulator of the auction. -/
def setSimulator (seed : Option Int) : Step Unit := do
  let session ← get
  match session.config with
  | none => throw (.missing .accrual)
  | some config =>
    let simulator ← orFail .simulation (Simulator.ofConfig config seed)
    set { session with simulator := some simulator }

/-- Simulates sales of the auction that the simulator was set up for, and adds them to those that
are known. -/
def simulate (sales interval : Raw) (session : Session) :
    Except SessionError SimulatedRun × Session :=
  match session.simulator with
  | none => (.error (.missing .simulator), session)
  | some simulator =>
    match simulator.run sales interval with
    | (.ok run, drawn) =>
      (.ok run, { session with simulator := some drawn, sales := session.sales ++ run.sales })
    | (.error error, drawn) =>
      (.error (.simulation error), { session with simulator := some drawn })

end Session

end HyperbolicAuction
