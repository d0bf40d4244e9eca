import HyperbolicAuction.Epoch

/-!
# The sampled curve

A curve is drawn from the start of its epoch to the end of a window, as prices at evenly spaced
offsets `u`. An offset counts half-lives; an epoch without a premium has none, and its offsets count
seconds. `tau` is always in seconds.

A requested end of the window wins over the least width, except without a premium: there the window
ends at the present as soon as any time has passed. Settings say how wide a curve is drawn, and with
how many segments, where nothing else is asked for.
-/

namespace HyperbolicAuction

/-! ## The window -/

/-- How wide a curve is to be drawn. -/
structure Window (α : Type) where
  requested : Option α
  /-- The least width, in half-lives, of a window that was not requested. -/
  leastHalfLives : α
  /-- The width, in seconds, of a window that nothing else determines. -/
  fallbackSeconds : α
deriving DecidableEq

namespace Window

variable {α : Type} [Scalar α]

open Scalar

/-- Ten half-lives, or ten minutes. -/
def standard : Window α where
  requested := none
  leastHalfLives := Nat.cast 10
  fallbackSeconds := Nat.cast 600

/-- The end of the window in seconds, for an epoch without a premium: the elapsed time, the request,
or the fallback, whichever first is not zero. -/
def endSeconds (window : Window α) (elapsed : α) : α :=
  if !isZero elapsed then elapsed
  else match window.requested with
    | some requested => if isZero requested then window.fallbackSeconds else requested
    | none => window.fallbackSeconds

/-- The end of the window in half-lives: the present, but no less than the least width. No half-life
has passed of an epoch without one. -/
def endHalfLives (window : Window α) (epoch : Epoch α) : Except ArithmeticError (Option α) :=
  match window.requested, epoch.halfLife with
  | some requested, _ => .ok (some requested)
  | none, some halfLife => do
    let passed ← quotient epoch.elapsed halfLife
    return some (larger passed window.leastHalfLives)
  | none, none =>
    .ok (if isFinite epoch.elapsed then some (larger 0 window.leastHalfLives) else none)

/-- The end of the window for an epoch, if it is finite and above zero. -/
def bound (window : Window α) (epoch : Epoch α) : Except ArithmeticError (Option α) := do
  let proposed ← match epoch.premiumRate with
    | none => .ok (some (window.endSeconds epoch.elapsed))
    | some _ => window.endHalfLives epoch
  return proposed.filter isUsable

end Window

/-! ## The samples -/

/-- One sample of a curve. -/
structure Point (α : Type) where
  epochIndex : Int
  /-- Seconds since the start of the epoch. -/
  tau : α
  /-- The offset: half-lives since the start, or seconds without a premium. -/
  u : α
  price : α
deriving DecidableEq

/-- The number of segments a curve is drawn with when nothing else is asked for. -/
def standardSteps : Nat := 120

namespace Epoch

variable {α : Type} [Scalar α]

open Scalar

/-- Whether a curve can be drawn at all: floor and decay are finite, the decay is above zero, and so
is the premium if there is one. -/
def definesCurve (epoch : Epoch α) : Bool :=
  isFinite epoch.floor && isUsable epoch.k && epoch.premiumRate.all isUsable

/-- Seconds per unit of offset. -/
def unitSeconds (epoch : Epoch α) : α :=
  match epoch.premiumRate with
  | none => 1
  | some _ => epoch.halfLife.getD 1

/-- The offset of a sample; the last one is the end of the window itself. -/
def sampleOffset (bound : α) (steps index : Nat) : α :=
  if index = steps then bound else bound * Nat.cast index / Nat.cast steps

/-- The sample at an offset. -/
def sampleAt (epoch : Epoch α) (u : α) : Except ArithmeticError (Point α) := do
  let tau := u * epoch.unitSeconds
  return { epochIndex := epoch.index, tau, u, price := ← epoch.askAfter tau }

/-- The samples at the ends of `steps` even segments up to an offset. The number of segments is
divided by, so it has to be a finite scalar. -/
def samplesUpTo (epoch : Epoch α) (bound : α) (steps : Nat) :
    Except ArithmeticError (List (Point α)) :=
  if isFinite (Nat.cast steps : α) then
    (List.range (steps + 1)).mapM fun index => epoch.sampleAt (sampleOffset bound steps index)
  else .error .countTooGreat

/-- The samples of a window. There are none when no segment, no window or no curve is asked for. -/
def samples (epoch : Epoch α) (window : Window α) (steps : Int) :
    Except ArithmeticError (List (Point α)) := do
  if steps < 1 || !epoch.definesCurve || !window.requested.all isUsable then
    return []
  match ← window.bound epoch with
  | none => return []
  | some bound => epoch.samplesUpTo bound steps.toNat

end Epoch

/-! ## Settings -/

/-- The settings of an engine. -/
structure Settings (α : Type) where
  /-- The decimals of the payment token. -/
  tokenDecimals : Nat
  /-- The segments that a curve is drawn with. -/
  curveSteps : Nat
  /-- The least width of a window, in half-lives. -/
  leastHalfLives : α
  /-- The width, in seconds, of a window that nothing else determines. -/
  fallbackSeconds : α
deriving DecidableEq

namespace Settings

variable {α : Type} [Scalar α]

/-- The settings where nothing is set. -/
def standard : Settings α where
  tokenDecimals := 18
  curveSteps := standardSteps
  leastHalfLives := Window.standard.leastHalfLives
  fallbackSeconds := Window.standard.fallbackSeconds

/-- The window of a curve under these settings. -/
def window (settings : Settings α) (requested : Option α) : Window α where
  requested := requested
  leastHalfLives := settings.leastHalfLives
  fallbackSeconds := settings.fallbackSeconds

end Settings

end HyperbolicAuction
