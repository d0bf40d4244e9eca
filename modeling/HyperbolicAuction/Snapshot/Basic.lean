import HyperbolicAuction.Auction.Basic
import HyperbolicAuction.Curve.Lookup

/-!
# Curve snapshots

A snapshot is what an evaluation found: its status, the ask of the moment, and the sampled curve if
there is one. Some of its properties are views of it for display.

An epoch is checked, drawn and priced at the moment it is seen; an auction is evaluated through the
live epoch of its sales. Nothing is kept from one evaluation to the next.
-/

namespace HyperbolicAuction

/-! ## Statuses -/

/-- What an evaluation came to. -/
inductive CurveStatus where
  | success
  | noConfig
  | invalidConfig
  | noSales
  | noCurve
deriving DecidableEq, Repr

namespace CurveStatus

/-- All statuses. -/
def all : List CurveStatus := [success, noConfig, invalidConfig, noSales, noCurve]

/-- The name under which a status is reported. -/
def name : CurveStatus → String
  | success => "success"
  | noConfig => "no_config"
  | invalidConfig => "invalid_config"
  | noSales => "no_sales"
  | noCurve => "no_curve"

/-- The words in which a status is shown to a user. -/
def label : CurveStatus → String
  | success => "live"
  | noConfig => "loading"
  | noSales => "no sales yet"
  | invalidConfig => "invalid configuration"
  | noCurve => "no curve yet"

end CurveStatus

/-- Why a name is refused. -/
inductive StatusError where
  | unknown (name : String)
deriving DecidableEq, Repr

/-- The kind of a cause. -/
def StatusError.kind : StatusError → ErrorKind
  | unknown _ => .invalidValue

/-- The text of a cause. -/
def StatusError.message : StatusError → String
  | unknown name => Text.quoted name ++ " is not a valid CurveStatus"

/-- The status of a name. -/
def CurveStatus.ofName (name : String) : Except StatusError CurveStatus :=
  match all.find? (·.name == name) with
  | some status => .ok status
  | none => .error (.unknown name)

/-- What an evaluation found. -/
structure Snapshot (α : Type) where
  status : CurveStatus
  epoch : Option (Epoch α) := none
  ask : Option α := none
  halfLife : Option α := none
  anchor : Option α := none
  /-- The end of the sampled window. -/
  windowEnd : Option α := none
  points : List (Point α) := []
  /-- Why there is no curve. -/
  reason : Option String := none
deriving DecidableEq

namespace Snapshot

variable {α : Type}

/-- Whether a curve was drawn. -/
def isValid (snapshot : Snapshot α) : Bool :=
  snapshot.status = .success && !snapshot.points.isEmpty

/-- The floor of the epoch. -/
def floor? (snapshot : Snapshot α) : Option α := snapshot.epoch.map (·.floor)

/-- The ask less the floor. -/
def premium? [Sub α] (snapshot : Snapshot α) : Option α := do
  return (← snapshot.ask) - (← snapshot.epoch).floor

/-- The snapshot's curve, to be looked up. -/
def lookup (snapshot : Snapshot α) : Lookup α := ⟨snapshot.points⟩

/-- The half-life for a report, where an infinite one counts as none. -/
def reportedHalfLife (snapshot : Snapshot Binary64) : Option Binary64 :=
  snapshot.halfLife.filter (!·.isInfinite)

/-- The ask for a user: two places and the currency. -/
def displayAsk (snapshot : Snapshot Binary64) : String :=
  match snapshot.ask.bind (Binary64.fixedText? 2) with
  | some amount => amount ++ " STRK"
  | none => "N/A"

end Snapshot

/-! ## Evaluation -/

/-- Why an epoch defines no curve. -/
inductive EpochFault where
  | decayNotFinite
  | decayNotPositive
  | floorNotFinite
  | premiumNotFinite
  | premiumNotPositive
deriving DecidableEq, Repr

/-- The words for a fault. -/
def EpochFault.reason : EpochFault → String
  | decayNotFinite => "k not finite"
  | decayNotPositive => "non-positive k"
  | floorNotFinite => "floor not finite"
  | premiumNotFinite => "premium rate not finite"
  | premiumNotPositive => "non-positive premium rate"

variable {α : Type} [Scalar α]

open Scalar

/-- The first fault of an epoch, if it has one. -/
def Epoch.fault? (epoch : Epoch α) : Option EpochFault :=
  if !isFinite epoch.k then some .decayNotFinite
  else if epoch.k ≤ 0 then some .decayNotPositive
  else if !isFinite epoch.floor then some .floorNotFinite
  else match epoch.premiumRate with
    | none => none
    | some premium =>
      if !isFinite premium then some .premiumNotFinite
      else if premium ≤ 0 then some .premiumNotPositive
      else none

namespace Snapshot

/-- An epoch at the moment it is seen. The end of the window and the number of segments may be asked
for; the settings stand in otherwise. -/
def ofEpoch (settings : Settings α) (epoch : Epoch α) (requested : Option α) (steps : Option Int) :
    Except ArithmeticError (Snapshot α) := do
  match epoch.fault? with
  | some fault =>
    return { status := .invalidConfig, epoch := some epoch, reason := some fault.reason }
  | none =>
    let window := settings.window requested
    let points ← epoch.samples window (steps.getD settings.curveSteps)
    let priced : Snapshot α := {
      status := .noCurve
      epoch := some epoch
      ask := some (← epoch.askNow)
      halfLife := epoch.halfLife }
    if points.isEmpty then return { priced with reason := some "no curve points" }
    return { priced with
      status := .success
      anchor := some epoch.anchor
      windowEnd := ← window.bound epoch
      points }

/-- An auction at a moment, from its configuration, if that is known, and its sales in any order. -/
def ofAuction (settings : Settings α) (config : Option (Config α)) (sales : List (Sale α))
    (nowTime : α) (requested : Option α) (steps : Option Int) :
    Except ArithmeticError (Snapshot α) :=
  match config with
  | none => .ok { status := .noConfig, reason := some "no config" }
  | some config =>
    match liveEpoch config sales nowTime with
    | none =>
      .ok {
        status := .noSales
        ask := config.baselineAsk nowTime
        reason := some "no sales" }
    | some epoch => ofEpoch settings epoch requested steps

end Snapshot

end HyperbolicAuction
