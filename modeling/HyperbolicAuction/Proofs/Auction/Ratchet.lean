import HyperbolicAuction.Proofs.Auction.History
import HyperbolicAuction.Proofs.Snapshot.Evaluation
import HyperbolicAuction.Session.Basic
import Mathlib.Data.List.Basic
import Mathlib.Data.List.Induction

/-!
# A live auction only goes up

Whoever buys pays the ask of the moment and opens an epoch at that price. No ask is below the floor
of its epoch, so prices never fall from one purchase to the next, and the first purchase of a genesis
epoch pays at least the genesis floor.

`purchase` is one step of such an auction and `purchases` a run of it; `sales_buys` says that a
session buys like this. `Ratchets` is what each step keeps: `ratchets_purchase` and
`ratchets_purchases`.

Main statement: `purchases_ratchet`.
-/

namespace HyperbolicAuction

open Binary64

section Run

variable (settings : Settings Binary64) (config : Config Binary64) (requested : Option Binary64)
  (asked : Option Int)

/-- The sales after somebody tried to buy at a moment: one more at the ask, if there is one. -/
def purchase (history : List (Sale Binary64)) (time : Binary64) : List (Sale Binary64) :=
  match Snapshot.ofAuction settings (some config) history time requested asked with
  | .ok snapshot => history ++ snapshot.ask.toList.map fun price => { time, price }
  | .error _ => history

/-- The sales after somebody tried to buy at each of these moments, from no sales on. -/
def purchases (times : List Binary64) : List (Sale Binary64) :=
  times.foldl (purchase settings config requested asked) []

end Run

/-- What the sales of a live auction keep to. -/
structure Ratchets (config : Config Binary64) (history : List (Sale Binary64)) : Prop where
  isOrdered : Sale.IsOrdered history
  /-- No price is below one before it. -/
  rising : history.Pairwise fun earlier later => earlier.price ≤ later.price
  /-- The first sale of a genesis epoch is no lower than the genesis floor. -/
  aboveGenesis : ∀ first, history.head? = some first →
    (config.genesisEpoch first.time).isSome = true →
      ∀ floor, config.genesisFloor = some floor → floor ≤ first.price

variable {settings : Settings Binary64} {config : Config Binary64} {requested : Option Binary64}
  {asked : Option Int} {history : List (Sale Binary64)} {time price : Binary64}
  {snapshot : Snapshot Binary64} {epoch : Epoch Binary64}

/-! ## What is asked -/

theorem ofAuction_of_liveEpoch (live : liveEpoch config history time = some epoch) :
    Snapshot.ofAuction settings (some config) history time requested asked =
      Snapshot.ofEpoch settings epoch requested asked := by
  simp only [Snapshot.ofAuction, live]

theorem ofAuction_of_no_liveEpoch (dormant : liveEpoch config history time = none) :
    Snapshot.ofAuction settings (some config) history time requested asked =
      .ok { status := .noSales, ask := config.baselineAsk time, reason := some "no sales" } := by
  simp only [Snapshot.ofAuction, dormant]

/-- The epoch of a snapshot is the live one. -/
theorem liveEpoch_of_ofAuction
    (returned : Snapshot.ofAuction settings (some config) history time requested asked =
      .ok snapshot)
    (shown : snapshot.epoch = some epoch) : liveEpoch config history time = some epoch := by
  cases live : liveEpoch config history time with
  | none =>
    rw [ofAuction_of_no_liveEpoch live] at returned
    cases returned
    cases shown
  | some current =>
    rw [ofAuction_of_liveEpoch live] at returned
    rw [(Snapshot.ofEpoch_cases returned).1] at shown
    exact shown

/-- No ask is below the floor of the live epoch. -/
theorem floor_le_of_ofAuction
    (returned : Snapshot.ofAuction settings (some config) history time requested asked =
      .ok snapshot)
    (priced : snapshot.ask = some price) (live : liveEpoch config history time = some epoch) :
    epoch.floor ≤ price := by
  rw [ofAuction_of_liveEpoch live] at returned
  obtain ⟨_, ⟨_, _, unpriced⟩ | ⟨defines, _, _, found, shown, asks⟩⟩ :=
    Snapshot.ofEpoch_cases returned
  · rw [unpriced] at priced
    cases priced
  · rw [shown] at priced
    cases priced
    exact floor_le_askAfter defines (elapsed_nonneg epoch) asks

theorem genesisEpoch_parts (live : config.genesisEpoch time = some epoch) :
    epoch.index = Epoch.genesisIndex ∧ config.genesisFloor = some epoch.floor := by
  obtain ⟨openTime, price, floor, _, _, floored, _, rfl⟩ := genesisEpoch_cases live
  exact ⟨rfl, floored⟩

/-! ## One step -/

theorem purchase_cases (settings : Settings Binary64) (config : Config Binary64)
    (requested : Option Binary64) (asked : Option Int) (history : List (Sale Binary64))
    (time : Binary64) :
    purchase settings config requested asked history time = history ∨
      ∃ snapshot price,
        Snapshot.ofAuction settings (some config) history time requested asked = .ok snapshot ∧
        snapshot.ask = some price ∧
        purchase settings config requested asked history time =
          history ++ [({ time, price } : Sale Binary64)] := by
  unfold purchase
  cases returned : Snapshot.ofAuction settings (some config) history time requested asked with
  | error error => exact .inl rfl
  | ok snapshot =>
    dsimp only
    cases priced : snapshot.ask with
    | none => exact .inl (List.append_nil history)
    | some price => exact .inr ⟨snapshot, price, rfl, priced, rfl⟩

/-- No ask is below a price that was paid before: the last price is the floor of the live epoch, and no
other one is higher. -/
theorem price_le_of_ofAuction (ratchets : Ratchets config history)
    (returned : Snapshot.ofAuction settings (some config) history time requested asked =
      .ok snapshot)
    (priced : snapshot.ask = some price) : ∀ sale ∈ history, sale.price ≤ price := by
  intro sale mem
  obtain ⟨earlier, last, split⟩ : ∃ earlier last, history = earlier ++ [last] :=
    ⟨_, _, (List.dropLast_concat_getLast (List.ne_nil_of_mem mem)).symm⟩
  subst split
  have lastPaid : last.price ≤ price :=
    floor_le_of_ofAuction returned priced (liveEpoch_append ratchets.isOrdered time)
  rcases List.mem_append.1 mem with before | isLast
  · have paid := (List.pairwise_append.1 ratchets.rising).2.2 sale before last
      (List.mem_singleton_self last)
    exact le_trans paid lastPaid
  · rw [List.mem_singleton.1 isLast]
    exact lastPaid

/-- A purchase that is no earlier than all before keeps what the history keeps to. -/
theorem ratchets_purchase (ratchets : Ratchets config history)
    (latest : ∀ sale ∈ history, sale.time ≤ time) :
    Ratchets config (purchase settings config requested asked history time) := by
  rcases purchase_cases settings config requested asked history time with
    unchanged | ⟨snapshot, price, returned, priced, appended⟩
  · rw [unchanged]
    exact ratchets
  · rw [appended]
    constructor
    · refine List.pairwise_append.2 ⟨ratchets.isOrdered, List.pairwise_singleton .., ?_⟩
      intro sale mem added isAdded
      rw [List.mem_singleton.1 isAdded]
      exact latest sale mem
    · refine List.pairwise_append.2 ⟨ratchets.rising, List.pairwise_singleton .., ?_⟩
      intro sale mem added isAdded
      rw [List.mem_singleton.1 isAdded]
      exact price_le_of_ofAuction ratchets returned priced sale mem
    · intro first isFirst begun floor known
      cases history with
      | cons oldest rest => exact ratchets.aboveGenesis first isFirst begun floor known
      | nil =>
        cases isFirst
        obtain ⟨epoch, live⟩ := Option.isSome_iff_exists.1 begun
        rw [(genesisEpoch_parts live).2] at known
        cases known
        rw [← liveEpoch_nil] at live
        exact floor_le_of_ofAuction returned priced live

/-! ## Runs -/

theorem purchases_append (times : List Binary64) (time : Binary64) :
    purchases settings config requested asked (times ++ [time]) =
      purchase settings config requested asked (purchases settings config requested asked times)
        time :=
  List.foldl_concat ..

/-- The sales of a run are at moments of the run, in their order. -/
theorem times_purchases_sublist (times : List Binary64) :
    ((purchases settings config requested asked times).map (·.time)).Sublist times := by
  induction times using List.reverseRecOn with
  | nil => exact List.Sublist.refl _
  | append_singleton times time ih =>
    rw [purchases_append]
    rcases purchase_cases settings config requested asked
      (purchases settings config requested asked times) time with unchanged | ⟨_, _, _, _, appended⟩
    · rw [unchanged]
      exact ih.trans (List.sublist_append_left _ _)
    · rw [appended, List.map_append]
      exact ih.append (List.Sublist.refl _)

/-- A whole run ratchets, since no sale so far is after the moment of the next purchase. -/
theorem ratchets_purchases {times : List Binary64} (ordered : times.Pairwise (· ≤ ·)) :
    Ratchets config (purchases settings config requested asked times) := by
  induction times using List.reverseRecOn with
  | nil => exact ⟨.nil, .nil, fun first isFirst => nomatch isFirst⟩
  | append_singleton times time ih =>
    rw [List.pairwise_append] at ordered
    rw [purchases_append]
    refine ratchets_purchase (ih ordered.1) ?_
    intro sale mem
    have happened := (times_purchases_sublist times).subset (List.mem_map_of_mem mem)
    exact ordered.2.2 sale.time happened time (List.mem_singleton_self time)

/-- A purchase in a session changes its sales alone. -/
theorem attempt_buy {session : Session} (known : session.config = some config) (time : Binary64) :
    (Session.attempt (Session.buy time) session).2 =
      { session with
        sales := purchase session.settings config none (some 1) session.sales time } := by
  unfold purchase
  rw [← known]
  cases returned : Snapshot.ofAuction session.settings session.config session.sales time none
    (some 1) with
  | error error =>
    have failed : (Session.buy time).run session = .error (.arithmetic error) := by
      simp only [Session.buy, Session.observe, Session.orFail, StateT.run_bind, StateT.run_get,
        pure_bind, returned]
      rfl
    rw [Session.attempt_of_error failed]
  | ok snapshot =>
    have bought : (Session.buy time).run session = .ok (snapshot, { session with
        sales := session.sales ++ snapshot.ask.toList.map fun price => { time, price } }) := by
      simp only [Session.buy, Session.observe, Session.orFail, StateT.run_bind, StateT.run_get,
        pure_bind, returned]
      rfl
    simp only [Session.attempt, bought]

/-- A session that starts without sales has those of a run. -/
theorem sales_buys {session : Session} (known : session.config = some config)
    (empty : session.sales = []) (times : List Binary64) :
    (times.foldl (fun reached time => (Session.attempt (Session.buy time) reached).2) session) =
      { session with sales := purchases session.settings config none (some 1) times } := by
  induction times using List.reverseRecOn with
  | nil =>
    show session = { session with sales := [] }
    rw [← empty]
  | append_singleton times time ih =>
    rw [List.foldl_concat, ih, purchases_append]
    exact @attempt_buy _ { session with sales := purchases .. } known time

/-- Whatever the moments of a run, as long as none is before another that came first: the sales are
in order, the live epoch of any moment is numbered by them and starts at the price of the last one,
no price is below the one before it, and a genesis epoch is not sold below its floor. -/
theorem purchases_ratchet (settings : Settings Binary64) (config : Config Binary64)
    (requested : Option Binary64) (asked : Option Int) {times : List Binary64}
    (ordered : times.Pairwise (· ≤ ·)) :
    let history := purchases settings config requested asked times
    Sale.inOrder history = history ∧
    (∀ now window steps snapshot epoch,
      Snapshot.ofAuction settings (some config) history now window steps = .ok snapshot →
      snapshot.epoch = some epoch →
        epoch.index = 1 + history.length ∧
        ∀ last, history.getLast? = some last → epoch.floor = last.price) ∧
    (history.Pairwise fun earlier later => earlier.price ≤ later.price) ∧
    ∀ first, history.head? = some first → (config.genesisEpoch first.time).isSome = true →
      ∃ floor, config.genesisFloor = some floor ∧ floor ≤ first.price := by
  intro history
  have ratchets : Ratchets config history := ratchets_purchases ordered
  refine ⟨inOrder_of_isOrdered ratchets.isOrdered, ?_, ratchets.rising, ?_⟩
  · intro now window steps snapshot epoch returned shown
    have live := liveEpoch_of_ofAuction returned shown
    rcases List.eq_nil_or_concat' history with empty | ⟨earlier, last, split⟩
    · rw [empty, liveEpoch_nil] at live
      rw [empty]
      exact ⟨(genesisEpoch_parts live).1, fun last isLast => nomatch isLast⟩
    · have isOrdered := ratchets.isOrdered
      rw [split] at live isOrdered ⊢
      rw [liveEpoch_append isOrdered] at live
      cases live
      refine ⟨rfl, ?_⟩
      intro newest isLast
      rw [List.getLast?_concat] at isLast
      cases isLast
      rfl
  · intro first isFirst begun
    obtain ⟨epoch, live⟩ := Option.isSome_iff_exists.1 begun
    have known := (genesisEpoch_parts live).2
    exact ⟨epoch.floor, known, ratchets.aboveGenesis first isFirst begun _ known⟩

/-- An auction that opens at ten over a floor of four. -/
def openingConfig : Config Binary64 where
  k := ofNat 100
  accrual := some (ofNat 2)
  genesisPrice := some (ofNat 10)
  genesisFloor := some (ofNat 4)
  openTime := some 0

theorem times_purchases_opening :
    (purchases .standard openingConfig none (some 1) [ofNat 1, ofNat 1, ofNat 7]).map (·.time) =
      [ofNat 1, ofNat 1, ofNat 7] := by
  have ordered : [ofNat 1, ofNat 1].Pairwise (· ≤ ·) := by decide +kernel
  have isOrdered : Sale.IsOrdered
      (purchases .standard openingConfig none (some 1) [ofNat 1, ofNat 1]) :=
    (ratchets_purchases ordered).isOrdered
  show (purchases .standard openingConfig none (some 1) ([ofNat 1, ofNat 1] ++ [ofNat 7])).map _ = _
  rw [purchases_append]
  unfold purchase Snapshot.ofAuction liveEpoch
  rw [inOrder_of_isOrdered isOrdered]
  decide +kernel

/-- Three sales, two of them at one moment. -/
theorem purchases_ratchet_opening :
    let history := purchases .standard openingConfig none (some 1) [ofNat 1, ofNat 1, ofNat 7]
    ∃ first second last, history = [first, second, last] ∧ Sale.inOrder history = history ∧
      (∀ now window steps snapshot epoch,
        Snapshot.ofAuction .standard (some openingConfig) history now window steps = .ok snapshot →
        snapshot.epoch = some epoch → epoch.index = 4 ∧ epoch.floor = last.price) ∧
      first.price ≤ second.price ∧ second.price ≤ last.price ∧ ofNat 4 ≤ first.price := by
  intro history
  have ordered : [ofNat 1, ofNat 1, ofNat 7].Pairwise (· ≤ ·) := by decide +kernel
  obtain ⟨sorted, numbered, rising, begun⟩ :=
    purchases_ratchet .standard openingConfig none (some 1) ordered
  obtain ⟨first, rest, split, firstTime, times⟩ := List.map_eq_cons_iff.1 times_purchases_opening
  obtain ⟨second, rest, rfl, _, times⟩ := List.map_eq_cons_iff.1 times
  obtain ⟨last, rest, rfl, _, times⟩ := List.map_eq_cons_iff.1 times
  obtain rfl := List.map_eq_nil_iff.1 times
  have three : history = [first, second, last] := split
  have isLast : history.getLast? = some last := by
    rw [three]
    rfl
  have isFirst : history.head? = some first := by
    rw [three]
    rfl
  have opens : (openingConfig.genesisEpoch first.time).isSome = true := by
    rw [firstTime]
    decide +kernel
  obtain ⟨floor, known, above⟩ := begun first isFirst opens
  have floored : ofNat 4 = floor := Option.some.inj known
  refine ⟨first, second, last, three, sorted, ?_, ?_, ?_, floored ▸ above⟩
  · intro now window steps snapshot epoch returned shown
    obtain ⟨number, starts⟩ := numbered now window steps snapshot epoch returned shown
    refine ⟨?_, starts last isLast⟩
    rw [number, split]
    rfl
  · rw [split] at rising
    exact List.rel_of_pairwise_cons rising (.head _)
  · rw [split] at rising
    exact List.rel_of_pairwise_cons (List.Pairwise.of_cons rising) (.head _)

end HyperbolicAuction
