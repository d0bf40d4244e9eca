import HyperbolicAuction.Amount.Decode
import HyperbolicAuction.Amount.Order
import HyperbolicAuction.Amount.Raw
import HyperbolicAuction.Auction.Basic
import HyperbolicAuction.Binary64.Basic
import HyperbolicAuction.Binary64.Bits
import HyperbolicAuction.Binary64.Text
import HyperbolicAuction.Epoch
import HyperbolicAuction.Curve.Lookup
import HyperbolicAuction.Curve.Sampling
import HyperbolicAuction.Decimal.Basic
import HyperbolicAuction.Decimal.Reader
import HyperbolicAuction.Basic
import HyperbolicAuction.Random.Generator
import HyperbolicAuction.Scalar
import HyperbolicAuction.Session.Basic
import HyperbolicAuction.Settings.CountText
import HyperbolicAuction.Settings.EnvFile
import HyperbolicAuction.Settings.Field
import HyperbolicAuction.Settings.Sources
import HyperbolicAuction.Simulation.Basic
import HyperbolicAuction.Simulation.Draw
import HyperbolicAuction.Snapshot.Basic
import HyperbolicAuction.Text.Integer
import HyperbolicAuction.Text.Quoted
import HyperbolicAuction.Proofs.Rounding
import HyperbolicAuction.Proofs.Binary64.Grid
import HyperbolicAuction.Proofs.Binary64.Order
import HyperbolicAuction.Proofs.Binary64.Arithmetic
import HyperbolicAuction.Proofs.Binary64.Monotone
import HyperbolicAuction.Proofs.Binary64.Share
import HyperbolicAuction.Proofs.Binary64.SignedZero
import HyperbolicAuction.Proofs.Binary64.Range
import HyperbolicAuction.Proofs.Curve.Window
import HyperbolicAuction.Proofs.Curve.Failure
import HyperbolicAuction.Proofs.Snapshot.Evaluation
import HyperbolicAuction.Proofs.Curve.Shared
import HyperbolicAuction.Proofs.Curve.Decay
import HyperbolicAuction.Proofs.Auction.History
import HyperbolicAuction.Proofs.Auction.Ratchet
import HyperbolicAuction.Proofs.Simulation.Draw
import HyperbolicAuction.Proofs.Simulation.History
import HyperbolicAuction.Proofs.Simulation.Replay
import HyperbolicAuction.Proofs.Text.Grammar
import HyperbolicAuction.Proofs.Text.Integer
import HyperbolicAuction.Proofs.Amount.Text
import HyperbolicAuction.Proofs.Decimal.Reader
import HyperbolicAuction.Proofs.Decimal.Whole
import HyperbolicAuction.Proofs.Amount.Descale
import HyperbolicAuction.Proofs.Amount.Encoding
import HyperbolicAuction.Proofs.Settings.Bounds
import HyperbolicAuction.Proofs.Entries
import HyperbolicAuction.Proofs.Settings.Reference
import HyperbolicAuction.Proofs.Settings.Precedence
import HyperbolicAuction.Proofs.Settings.Isolation
import HyperbolicAuction.Proofs.Settings.History
import HyperbolicAuction.Proofs.Session.Settings
import HyperbolicAuction.Proofs.Curve.Range
import HyperbolicAuction.Proofs.Auction.Intake
import HyperbolicAuction.Proofs.Auction.OnChain
import HyperbolicAuction.Proofs.Auction.Passage
import HyperbolicAuction.Proofs.Auction.Sorting
import HyperbolicAuction.Proofs.Auction.Reordering
import HyperbolicAuction.Proofs.Amount.Refusal
import HyperbolicAuction.Proofs.Binary64.Overflow
import HyperbolicAuction.Proofs.Auction.Refusal
import HyperbolicAuction.Proofs.Curve.Sampling
import HyperbolicAuction.Proofs.Curve.Descent
import HyperbolicAuction.Proofs.Curve.Exact
import HyperbolicAuction.Proofs.Curve.Forms
import HyperbolicAuction.Proofs.Curve.Table
import HyperbolicAuction.Proofs.Snapshot.Coherence
import HyperbolicAuction.Proofs.Snapshot.StandardWindow
import HyperbolicAuction.Proofs.Simulation.Prefix
import HyperbolicAuction.Proofs.Curve.Accuracy
import HyperbolicAuction.Proofs.Binary64.Distance
import HyperbolicAuction.Proofs.Curve.Nearest
import HyperbolicAuction.Proofs.Auction.OnePass
import HyperbolicAuction.Proofs.Decimal.Numeral
import HyperbolicAuction.Proofs.Binary64.Nearest
import HyperbolicAuction.Proofs.Amount.HumanUnits
import HyperbolicAuction.Proofs.Curve.Hits
import HyperbolicAuction.Proofs.Amount.Parts
import HyperbolicAuction.Proofs.Auction.Premium
import HyperbolicAuction.Proofs.Curve.Coordinates
import HyperbolicAuction.Proofs.Snapshot.Coverage
import HyperbolicAuction.Proofs.Auction.NullEntry
import HyperbolicAuction.Proofs.Binary64.FixedForm
import HyperbolicAuction.Proofs.Snapshot.Display
