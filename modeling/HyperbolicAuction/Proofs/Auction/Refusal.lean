import HyperbolicAuction.Auction.Basic
import HyperbolicAuction.Proofs.Amount.Refusal

/-!
# How configurations and sales are refused

A configuration or a sale is a row of readings, each met only after those before it have been read. It
is refused for another reason than that a value is not acceptable exactly where the row reaches a
reading that is: an infinite or signalling decimal number that stands for an amount, a time or a
token, or a time that no finite value is nearest to. Every other malformed value is refused as not
acceptable.

Main statements: `Config.escapes_ofEntries_iff`, `Sale.escapes_ofRaw_iff`, `boundary_escapes_iff`.
`boundary_escapes` shows that each way of escaping is met.
-/

namespace HyperbolicAuction

/-- A raw value, and what is read from it. -/
inductive Reading where
  | integer (value : Raw)
  | human (value : Raw)
  | seconds (value : Raw)

namespace Reading

/-- The value can be read. -/
def IsRead (decimals : Int) : Reading → Prop
  | integer value => ∃ number, Amount.decode value = .ok number
  | human value => ∃ amount, Amount.toHuman value decimals = .ok amount
  | seconds value => ∃ time, Amount.toSeconds value = .ok time

/-- The value is refused for another reason than that it is not acceptable. -/
def Offends (kind : ErrorKind) : Reading → Prop
  | integer value => Amount.Offends kind value
  | human value => Amount.Offends kind value
  | seconds value => Amount.Offends kind value ∨
      kind = .outOfRange ∧
        ∃ number, Amount.decode value = .ok number ∧ Binary64.leastInfinite ≤ number

/-- In a row of readings, the first that cannot be read offends. -/
inductive FirstOffends (kind : ErrorKind) (decimals : Int) : List Reading → Prop
  | here {reading : Reading} {rest : List Reading} (offends : reading.Offends kind) :
      FirstOffends kind decimals (reading :: rest)
  | later {reading : Reading} {rest : List Reading} (isRead : reading.IsRead decimals)
      (offends : FirstOffends kind decimals rest) : FirstOffends kind decimals (reading :: rest)

/-- An outcome is that of a reading, as far as reading on and escaping are concerned. -/
structure Yields {α : Type} (decimals : Int) (reading : Reading) (outcome : Except AmountError α) :
    Prop where
  isRead : reading.IsRead decimals ↔ ∃ value, outcome = .ok value
  escapes : ∀ kind, Escapes kind outcome ↔ reading.Offends kind

variable {α β : Type} {kind : ErrorKind} {decimals : Int} {reading : Reading} {rest : List Reading}

theorem not_firstOffends_nil : ¬ FirstOffends kind decimals [] :=
  fun offends => nomatch offends

theorem firstOffends_cons_iff : FirstOffends kind decimals (reading :: rest) ↔
    reading.Offends kind ∨ reading.IsRead decimals ∧ FirstOffends kind decimals rest := by
  constructor
  · intro offends
    cases offends with
    | here offends => exact .inl offends
    | later isRead offends => exact .inr ⟨isRead, offends⟩
  · rintro (offends | ⟨isRead, offends⟩)
    · exact .here offends
    · exact .later isRead offends

theorem yields_decode (value : Raw) : Yields decimals (integer value) (Amount.decode value) :=
  ⟨Iff.rfl, fun _ => Amount.escapes_decode_iff⟩

theorem yields_toHuman (value : Raw) :
    Yields decimals (human value) (Amount.toHuman value decimals) :=
  ⟨Iff.rfl, fun _ => Amount.escapes_toHuman_iff⟩

theorem yields_toSeconds (value : Raw) :
    Yields decimals (seconds value) (Amount.toSeconds value) :=
  ⟨Iff.rfl, fun _ => Amount.escapes_toSeconds_iff⟩

/-- One reading, and what is done with the value that is read. -/
theorem escapes_bind_iff {first : Except AmountError α} {next : α → Except AmountError β}
    (yields : Yields decimals reading first)
    (nextEscapes : ∀ value, Escapes kind (next value) ↔ FirstOffends kind decimals rest) :
    Escapes kind (first >>= next) ↔ FirstOffends kind decimals (reading :: rest) := by
  rw [Escapes.bind_iff, firstOffends_cons_iff, yields.escapes, yields.isRead]
  simp only [nextEscapes, ← exists_and_right]

theorem some_mapM_bind {value : Raw} {read : Raw → Except AmountError α}
    {next : Option α → Except AmountError β} :
    ((some value).mapM read >>= next) = read value >>= fun item => next (some item) := by
  cases given : read value with
  | error error =>
    rw [Option.mapM_some, given]
    rfl
  | ok item =>
    rw [Option.mapM_some, given]
    rfl

/-- A reading of a value that need not be given. -/
theorem escapes_mapM_bind_iff {given : Option Raw} {view : Raw → Reading}
    {read : Raw → Except AmountError α} {next : Option α → Except AmountError β}
    (yields : ∀ value, Yields decimals (view value) (read value))
    (nextEscapes : ∀ value?, Escapes kind (next value?) ↔ FirstOffends kind decimals rest) :
    Escapes kind (given.mapM read >>= next) ↔
      FirstOffends kind decimals ((given.map view).toList ++ rest) := by
  cases given with
  | none => exact nextEscapes none
  | some value =>
    rw [some_mapM_bind]
    exact escapes_bind_iff (yields value) fun item => nextEscapes (some item)

theorem escapes_pure_iff {value : α} : Escapes kind (pure value : Except AmountError α) ↔
    FirstOffends kind decimals [] :=
  iff_of_false Escapes.not_pure not_firstOffends_nil

end Reading

open Reading

variable {kind : ErrorKind} {decimals : Int}

/-! ## Configurations -/

namespace Config

variable {entries : List (String × Raw)}

/-- What is read of a configuration, in order. -/
def readings (entries : List (String × Raw)) : List Reading :=
  ((givenValue? entries "k").map human).toList ++
    (((givenValue? entries "pts").map human).toList ++
      (((givenValue? entries "genesis_price").map human).toList ++
        (((givenValue? entries "genesis_floor").map human).toList ++
          (((givenOpenTime? entries).map seconds).toList ++ []))))

/-- Nothing is read of a configuration without a decay. -/
theorem escapes_ofEntries_iff : Escapes kind (ofEntries entries decimals) ↔
    (givenValue? entries "k").isSome = true ∧ FirstOffends kind decimals (readings entries) := by
  unfold ofEntries readings
  cases decay : givenValue? entries "k" with
  | none =>
    dsimp only
    rw [decay]
    simp [AmountError.kind]
  | some k =>
    dsimp only
    rw [decay, some_mapM_bind]
    simp only [Option.isSome_some, true_and]
    refine escapes_bind_iff (yields_toHuman k) fun _ => ?_
    refine escapes_mapM_bind_iff yields_toHuman fun _ => ?_
    refine escapes_mapM_bind_iff yields_toHuman fun _ => ?_
    refine escapes_mapM_bind_iff yields_toHuman fun _ => ?_
    refine escapes_mapM_bind_iff yields_toSeconds fun _ => ?_
    exact escapes_pure_iff

end Config

/-! ## Sales -/

namespace Sale

variable {time price tokenId : Raw} {buyer : Option String}

/-- What is read of a sale, in order. -/
def readings (time price tokenId : Raw) : List Reading :=
  seconds time :: human price :: if tokenId.isNull then [] else [integer tokenId]

theorem escapes_ofRaw_iff : Escapes kind (ofRaw time price decimals buyer tokenId) ↔
    FirstOffends kind decimals (readings time price tokenId) := by
  unfold ofRaw readings
  refine escapes_bind_iff (yields_toSeconds time) fun _ => ?_
  refine escapes_bind_iff (yields_toHuman price) fun _ => ?_
  dsimp only
  split
  · exact escapes_pure_iff
  · rw [bind_map_left]
    refine escapes_bind_iff (yields_decode tokenId) fun _ => ?_
    exact escapes_pure_iff

end Sale

/-! ## All boundaries -/

/-- The exact conditions on which something else than a value that is not acceptable is reported. -/
theorem boundary_escapes_iff (kind : ErrorKind) (decimals : Int) :
    (∀ value,
      (Escapes kind (Amount.decode value) ↔ Amount.Offends kind value) ∧
      (Escapes kind (Amount.descale value decimals) ↔ Amount.Offends kind value) ∧
      (Escapes kind (Amount.toHuman value decimals) ↔ Amount.Offends kind value)) ∧
    (∀ entries, Escapes kind (Config.ofRaw (.mapping entries) decimals) ↔
      (givenValue? entries "k").isSome = true ∧
        FirstOffends kind decimals (Config.readings entries)) ∧
    ∀ time price tokenId buyer, Escapes kind (Sale.ofRaw time price decimals buyer tokenId) ↔
      FirstOffends kind decimals (Sale.readings time price tokenId) := by
  refine ⟨fun value => ⟨?_, ?_, ?_⟩, fun entries => ?_, fun time price tokenId buyer => ?_⟩
  · exact Amount.escapes_decode_iff
  · exact Amount.escapes_descale_iff
  · exact Amount.escapes_toHuman_iff
  · exact Config.escapes_ofEntries_iff
  · exact Sale.escapes_ofRaw_iff

/-- Infinite and signalling decimal numbers escape, and so does a time beyond every finite value. -/
theorem boundary_escapes :
    Escapes .outOfRange (Amount.decode (.decimal (.infinity false))) ∧
      Escapes .undefinedOperation (Amount.decode (.decimal (.nan false true 0))) ∧
      Escapes .outOfRange (Config.ofRaw (.mapping [("k", .decimal (.infinity true))]) 18) ∧
      Escapes .outOfRange (Sale.ofRaw (.int Binary64.leastInfinite) (.int 1) 18 none .null) := by
  refine ⟨?_, ?_, ?_, ?_⟩
  · exact Amount.escapes_decode_of_offence rfl
  · exact Amount.escapes_decode_of_offence rfl
  · exact Config.escapes_ofEntries_iff.2 ⟨rfl, .here (.scalar rfl)⟩
  · exact Sale.escapes_ofRaw_iff.2
      (.here (.inr ⟨rfl, _, Amount.decode_int Binary64.leastInfinite, Nat.le_refl _⟩))

end HyperbolicAuction
