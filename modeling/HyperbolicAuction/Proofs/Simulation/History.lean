import HyperbolicAuction.Proofs.Auction.Ratchet
import HyperbolicAuction.Proofs.Simulation.Draw
import HyperbolicAuction.Simulation.Basic

/-!
# Simulated histories go up

A simulated history is well formed: sale and epoch of each index belong together, each time is the
time before it and an interval that was asked for, and each epoch starts at the price of the sale
before it. Since no buyer pays less than the floor, the floors never fall.

`LinkedAt` says how the sale and the epoch of an index follow from those before, and `Grows` is what
each further sale keeps: `grows_settle`, `grows_extend`.

Main statement: `run_grows`.
-/

namespace HyperbolicAuction

open Binary64 Scalar Simulation

attribute [local irreducible] overflowLimit unitsPerOne

/-! ## Auctions that are simulated -/

/-- An auction that a simulator takes, with a finite decay, rate and opening. -/
structure Config.Drives (config : Config Binary64) (openTime genesisFloor : Binary64) : Prop where
  opens : config.openTime = some openTime
  openFinite : openTime.isFinite = true
  floorFinite : genesisFloor.isFinite = true
  decay : isUsable config.k = true
  accrues : ∃ accrual, config.accrual = some accrual ∧ 0 < accrual.position
  begins : ∃ genesisPrice, isUsable (genesisPrice - genesisFloor) = true ∧
    ∀ now, config.genesisEpoch now =
      some (.genesis genesisFloor genesisPrice config.k openTime now)

namespace SimulatedRun

/-- How the sale and the epoch of an index follow from those before. -/
structure LinkedAt (openTime genesisFloor : Binary64) (interval : Raw) (run : SimulatedRun)
    (index : Nat) (epoch : Epoch Binary64) (sale : Sale Binary64) : Prop where
  tokenId : sale.tokenId = some (index : Int)
  number : epoch.index = index + 1
  isGenesis : epoch.isGenesis = decide (index = 0)
  time : ∃ prior seconds, (openTime :: run.sales.map (·.time))[index]? = some prior ∧
    1 ≤ seconds ∧ Admits interval seconds ∧ (ofInt seconds).isFinite = true ∧
    sale.time = prior + ofInt seconds
  floor : (genesisFloor :: run.sales.map (·.price))[index]? = some epoch.floor
  paid : epoch.floor ≤ sale.price

/-- What a history up to a time keeps to. -/
structure Grows (openTime genesisFloor : Binary64) (interval : Raw) (time : Binary64)
    (run : SimulatedRun) : Prop where
  paired : run.sales.length = run.epochs.length
  linked : ∀ index epoch sale, run.epochs[index]? = some epoch → run.sales[index]? = some sale →
    LinkedAt openTime genesisFloor interval run index epoch sale
  isOrdered : Sale.IsOrdered run.sales
  /-- No sale is after the time, which is that of the last one. -/
  latest : ∀ sale ∈ run.sales, sale.time ≤ time
  begun : openTime ≤ time
  newest : (openTime :: run.sales.map (·.time))[run.sales.length]? = some time
  rising : (genesisFloor :: run.sales.map (·.price)).Pairwise (· ≤ ·)

variable {config : Config Binary64} {openTime genesisFloor time : Binary64} {interval : Raw}
  {run : SimulatedRun} {epoch : Epoch Binary64} {sale : Sale Binary64} {index : Nat}

theorem getElem?_append_of_some {α : Type} {items : List α} {item : α} (more : List α)
    (found : items[index]? = some item) : (items ++ more)[index]? = some item := by
  rw [List.getElem?_append_left (List.getElem?_eq_some_iff.1 found).1]
  exact found

theorem getElem?_append_singleton_cases {α : Type} {items : List α} {last item : α}
    (found : (items ++ [last])[index]? = some item) :
    items[index]? = some item ∨ index = items.length ∧ item = last := by
  rcases Nat.lt_or_ge index items.length with inside | beyond
  · rw [List.getElem?_append_left inside] at found
    exact .inl found
  · rw [List.getElem?_append_right beyond, List.getElem?_singleton] at found
    split at found
    · next zero =>
      cases found
      exact .inr ⟨by omega, rfl⟩
    · cases found

/-- Sale and epoch of an index are both from before a further sale, or both those of that sale. -/
theorem record_cases {nextEpoch epoch : Epoch Binary64} {nextSale sale : Sale Binary64}
    (paired : run.sales.length = run.epochs.length)
    (epochAt : (run.record nextEpoch nextSale).epochs[index]? = some epoch)
    (saleAt : (run.record nextEpoch nextSale).sales[index]? = some sale) :
    run.epochs[index]? = some epoch ∧ run.sales[index]? = some sale ∨
      index = run.sales.length ∧ epoch = nextEpoch ∧ sale = nextSale := by
  rcases getElem?_append_singleton_cases epochAt with epochBefore | ⟨epochIndex, isEpoch⟩
  · rcases getElem?_append_singleton_cases saleAt with saleBefore | ⟨saleIndex, _⟩
    · exact .inl ⟨epochBefore, saleBefore⟩
    · have inside := (List.getElem?_eq_some_iff.1 epochBefore).1
      omega
  · rcases getElem?_append_singleton_cases saleAt with saleBefore | ⟨saleIndex, isSale⟩
    · have inside := (List.getElem?_eq_some_iff.1 saleBefore).1
      omega
    · exact .inr ⟨saleIndex, isEpoch, isSale⟩

/-- A further sale changes nothing about the links before it. -/
theorem LinkedAt.record (linked : LinkedAt openTime genesisFloor interval run index epoch sale)
    (nextEpoch : Epoch Binary64) (nextSale : Sale Binary64) :
    LinkedAt openTime genesisFloor interval (run.record nextEpoch nextSale) index epoch sale where
  tokenId := linked.tokenId
  number := linked.number
  isGenesis := linked.isGenesis
  time := by
    obtain ⟨prior, seconds, found, rest⟩ := linked.time
    refine ⟨prior, seconds, ?_, rest⟩
    unfold SimulatedRun.record
    rw [List.map_append, ← List.cons_append]
    exact getElem?_append_of_some _ found
  floor := by
    unfold SimulatedRun.record
    rw [List.map_append, ← List.cons_append]
    exact getElem?_append_of_some _ linked.floor
  paid := linked.paid

theorem grows_empty (drives : config.Drives openTime genesisFloor) :
    Grows openTime genesisFloor interval openTime {} where
  paired := rfl
  linked := fun _ _ _ found => nomatch found
  isOrdered := .nil
  latest := fun _ mem => nomatch mem
  begun := le_refl (isFinite_iff.1 drives.openFinite).1
  newest := rfl
  rising := List.pairwise_singleton ..

/-! ## The epoch in force -/

theorem getElem?_length_cons_map {α β : Type} (first : β) (f : α → β) (earlier : List α)
    (last : α) :
    (first :: (earlier ++ [last]).map f)[(earlier ++ [last]).length]? = some (f last) := by
  rw [List.length_append, List.length_singleton, List.getElem?_cons_succ, List.map_append,
    List.map_singleton, ← List.length_map f, List.getElem?_concat_length]

/-- The epoch in force after a history is numbered by its sales, starts at the price of the last one
and has a premium above zero. -/
theorem exists_liveEpoch (drives : config.Drives openTime genesisFloor)
    (grows : Grows openTime genesisFloor interval time run) (now : Binary64) :
    ∃ epoch premium, liveEpoch config run.sales now = some epoch ∧
      epoch.index = run.sales.length + 1 ∧ epoch.isGenesis = decide (run.sales.length = 0) ∧
      (genesisFloor :: run.sales.map (·.price))[run.sales.length]? = some epoch.floor ∧
      epoch.k = config.k ∧ epoch.premiumRate = some premium ∧ 0 < premium.position := by
  have isOrdered := grows.isOrdered
  rcases List.eq_nil_or_concat' run.sales with empty | ⟨earlier, last, split⟩
  · obtain ⟨genesisPrice, usable, live⟩ := drives.begins
    rw [empty, liveEpoch_nil, live now]
    exact ⟨_, _, rfl, rfl, rfl, rfl, rfl, rfl, pos_of_isUsable usable⟩
  · obtain ⟨accrual, known, positive⟩ := drives.accrues
    rw [split] at isOrdered
    rw [split, liveEpoch_append isOrdered, known]
    obtain ⟨prior, since⟩ : ∃ prior, priorTime config earlier = some prior := by
      unfold priorTime
      cases earlier.getLast? with
      | none => exact ⟨openTime, drives.opens⟩
      | some previous => exact ⟨previous.time, rfl⟩
    rw [since]
    refine ⟨_, _, rfl, ?_, ?_, getElem?_length_cons_map .., rfl, rfl,
      accrual_mul_pos positive (last.time - prior)⟩
    · exact Int.add_comm ..
    · rw [List.length_append, List.length_singleton]
      rfl

/-! ## One sale -/

theorem settle_cases {buyer : String} {next : SimulatedRun}
    (settled : Simulator.settle config buyer time run = .ok next) :
    ∃ epoch price, liveEpoch config run.sales time = some epoch ∧ epoch.askNow = .ok price ∧
      next = run.record epoch
        { time, price, buyer := some buyer, tokenId := some run.sales.length } := by
  unfold Simulator.settle at settled
  split at settled
  · cases settled
  · next epoch live =>
    split at settled
    · cases settled
    · next price asks =>
      cases settled
      exact ⟨epoch, price, live, asks, rfl⟩

/-- The last of values that do not fall is no less than any. -/
theorem le_last_of_pairwise {values : List Binary64} {last : Binary64} (number : last ≠ nan)
    (rising : (values ++ [last]).Pairwise (· ≤ ·)) : ∀ value ∈ values ++ [last], value ≤ last := by
  intro value mem
  rcases List.mem_append.1 mem with before | isLast
  · exact (List.pairwise_append.1 rising).2.2 value before last (List.mem_singleton_self last)
  · rw [List.mem_singleton.1 isLast]
    exact le_refl number

/-- The floor of the epoch in force is no lower than any price so far. -/
theorem le_floor_of_rising {floor : Binary64}
    (grows : Grows openTime genesisFloor interval time run)
    (floorFinite : genesisFloor.isFinite = true)
    (found : (genesisFloor :: run.sales.map (·.price))[run.sales.length]? = some floor) :
    ∀ price ∈ genesisFloor :: run.sales.map (·.price), price ≤ floor := by
  have rising := grows.rising
  rcases List.eq_nil_or_concat' run.sales with empty | ⟨earlier, last, split⟩
  · rw [empty] at found ⊢
    cases found
    exact @le_last_of_pairwise [] _ (isFinite_iff.1 floorFinite).1 (List.pairwise_singleton ..)
  · rw [split, getElem?_length_cons_map] at found
    rw [split, List.map_append, List.map_singleton, ← List.cons_append] at rising ⊢
    cases found
    have number : last.price ≠ nan := (ne_nan_of_le
      ((List.pairwise_append.1 rising).2.2 genesisFloor List.mem_cons_self last.price
        (List.mem_singleton_self _))).2
    exact le_last_of_pairwise number rising

/-- Waiting never turns the clock back, even where the sum is rounded to the time before. -/
theorem le_add_seconds {seconds : Int} (openFinite : openTime.isFinite = true)
    (begun : openTime ≤ time) (positive : 1 ≤ seconds) : time ≤ time + ofInt seconds := by
  obtain ⟨timeNumber, high⟩ := ne_of_isFinite_le openFinite begun
  refine le_add_of_nonneg timeNumber high (nonneg_of_position_pos ?_)
  have least := unitsPerOne_le_position_ofInt positive
  have unit := unitsPerOne_pos
  omega

/-- Nobody pays less than the floor of an epoch that is sold out of. -/
theorem floor_le_askNow {premium price : Binary64} (drives : config.Drives openTime genesisFloor)
    (above : genesisFloor ≤ epoch.floor) (decay : epoch.k = config.k)
    (known : epoch.premiumRate = some premium) (positive : 0 < premium.position)
    (asks : epoch.askNow = .ok price) : epoch.floor ≤ price := by
  obtain ⟨floorNumber, high⟩ := ne_of_isFinite_le drives.floorFinite above
  refine floor_le_ask floorNumber high ?_ ?_ (ne_nan_of_le (elapsed_nonneg epoch)).2 asks
  · rw [decay]
    exact drives.decay
  · intro other isKnown
    rw [known] at isKnown
    cases isKnown
    exact positive

/-- A further sale that is linked itself leaves a history of linked sales. -/
theorem Grows.linked_record (grows : Grows openTime genesisFloor interval time run)
    (linked : LinkedAt openTime genesisFloor interval run run.sales.length epoch sale)
    (index : Nat) (epochThere : Epoch Binary64) (saleThere : Sale Binary64)
    (epochAt : (run.record epoch sale).epochs[index]? = some epochThere)
    (saleAt : (run.record epoch sale).sales[index]? = some saleThere) :
    LinkedAt openTime genesisFloor interval (run.record epoch sale) index epochThere
      saleThere := by
  rcases record_cases grows.paired epochAt saleAt with
    ⟨epochBefore, saleBefore⟩ | ⟨isLast, isEpoch, isSale⟩
  · exact (grows.linked index _ _ epochBefore saleBefore).record _ _
  · rw [isLast, isEpoch, isSale]
    exact linked.record _ _

/-- A sale at the ask of the epoch in force, some seconds after the last one, keeps a history well
formed. -/
theorem grows_settle {buyer : String} {seconds : Int} {next : SimulatedRun}
    (drives : config.Drives openTime genesisFloor)
    (grows : Grows openTime genesisFloor interval time run) (positive : 1 ≤ seconds)
    (admitted : Admits interval seconds) (bounded : (ofInt seconds).isFinite = true)
    (settled : Simulator.settle config buyer (time + ofInt seconds) run = .ok next) :
    Grows openTime genesisFloor interval (time + ofInt seconds) next := by
  obtain ⟨epoch, price, live, asks, rfl⟩ := settle_cases settled
  obtain ⟨_, premium, isLive, number, isGenesis, floor, decay, known, premiumPositive⟩ :=
    exists_liveEpoch drives grows (time + ofInt seconds)
  rw [live] at isLive
  cases isLive
  have aboveAll := le_floor_of_rising grows drives.floorFinite floor
  have paid : epoch.floor ≤ price :=
    floor_le_askNow drives (aboveAll genesisFloor List.mem_cons_self) decay known premiumPositive
      asks
  have later : time ≤ time + ofInt seconds := le_add_seconds drives.openFinite grows.begun positive
  constructor
  · show (run.sales ++ [_]).length = (run.epochs ++ [_]).length
    rw [List.length_append, List.length_append, grows.paired]
    rfl
  · exact grows.linked_record ⟨rfl, number, isGenesis,
      ⟨time, seconds, grows.newest, positive, admitted, bounded, rfl⟩, floor, paid⟩
  · refine List.pairwise_append.2 ⟨grows.isOrdered, List.pairwise_singleton .., ?_⟩
    intro sale mem added isAdded
    rw [List.mem_singleton.1 isAdded]
    exact le_trans (grows.latest sale mem) later
  · intro sale mem
    rcases List.mem_append.1 mem with before | isLast
    · exact le_trans (grows.latest sale before) later
    · rw [List.mem_singleton.1 isLast]
      exact le_refl (ne_nan_of_le later).2
  · exact le_trans grows.begun later
  · exact getElem?_length_cons_map openTime (fun sale : Sale Binary64 => sale.time) run.sales _
  · unfold SimulatedRun.record
    rw [List.map_append, ← List.cons_append]
    refine List.pairwise_append.2 ⟨grows.rising, List.pairwise_singleton .., ?_⟩
    intro earlier mem added isAdded
    rw [List.mem_singleton.1 isAdded]
    exact le_trans (aboveAll earlier mem) paid

/-! ## Runs -/

variable {buyer : String} {before after : Random.Generator}

theorem drawInterval_cases {seconds : Binary64}
    (returned : (Simulator.drawInterval interval).run before = (.ok seconds, after)) :
    ∃ number, 1 ≤ number ∧ Admits interval number ∧ (ofInt number).isFinite = true ∧
      seconds = ofInt number := by
  unfold Simulator.drawInterval at returned
  obtain ⟨number, between, drawn, checked⟩ := Drawing.exists_of_bind returned
  dsimp only at checked
  split at checked
  · exact (Drawing.of_throw_bind checked).elim
  · next positive =>
    split at checked
    · next value converted =>
      obtain ⟨isNumber, finite_⟩ := ofInt?_eq_some converted
      rw [isNumber] at finite_
      refine ⟨number, by omega, admits_of_draw drawn, finite_, ?_⟩
      rw [← Drawing.of_pure checked, isNumber]
    · exact (Drawing.of_throw checked).elim

/-- A history that is extended by one sale or more is one that an interval was drawn for and a sale
settled in, and is extended from there. -/
theorem extend_succ_cases {count : Nat} {extended : SimulatedRun}
    (returned : (Simulator.extend config interval buyer (count + 1) time run).run before =
      (.ok extended, after)) :
    ∃ seconds between next,
      (Simulator.drawInterval interval).run before = (.ok seconds, between) ∧
      Simulator.settle config buyer (time + seconds) run = .ok next ∧
      (Simulator.extend config interval buyer count (time + seconds) next).run between =
        (.ok extended, after) := by
  unfold Simulator.extend at returned
  obtain ⟨seconds, between, drawn, rest⟩ := Drawing.exists_of_bind returned
  dsimp only at rest
  split at rest
  · exact (Drawing.of_throw rest).elim
  · next next settled => exact ⟨seconds, between, next, drawn, settled, rest⟩

/-- A history starts at the opening and has as many sales as were drawn. -/
theorem draws_cases {sales : Raw}
    (returned : (Simulator.draws config sales interval buyer).run before = (.ok run, after)) :
    ∃ count between openTime, (draw sales).run before = (.ok count, between) ∧ 0 ≤ count ∧
      config.openTime = some openTime ∧
      (Simulator.extend config interval buyer count.toNat openTime {}).run between =
        (.ok run, after) := by
  unfold Simulator.draws at returned
  obtain ⟨count, between, drawn, checked⟩ := Drawing.exists_of_bind returned
  dsimp only at checked
  split at checked
  · exact (Drawing.of_throw_bind checked).elim
  · next nonneg =>
    cases opens : config.openTime with
    | none =>
      rw [opens] at checked
      exact (Drawing.of_throw checked).elim
    | some openTime =>
      rw [opens] at checked
      exact ⟨count, between, openTime, drawn, by omega, rfl, checked⟩

/-- Further sales keep it so as well: each draws an interval and settles one sale. -/
theorem grows_extend (drives : config.Drives openTime genesisFloor) {count : Nat}
    {extended : SimulatedRun} (grows : Grows openTime genesisFloor interval time run)
    (returned : (Simulator.extend config interval buyer count time run).run before =
      (.ok extended, after)) :
    extended.sales.length = run.sales.length + count ∧
      ∃ last, Grows openTime genesisFloor interval last extended := by
  induction count generalizing time run before with
  | zero =>
    have same := Drawing.of_pure returned
    rw [← same]
    exact ⟨rfl, time, grows⟩
  | succ count ih =>
    obtain ⟨seconds, between, next, drawn, settled, rest⟩ := extend_succ_cases returned
    obtain ⟨number, positive, admitted, bounded, rfl⟩ := drawInterval_cases drawn
    have grown := grows_settle drives grows positive admitted bounded settled
    obtain ⟨_, _, _, _, rfl⟩ := settle_cases settled
    obtain ⟨length, last, final⟩ := ih grown rest
    refine ⟨?_, last, final⟩
    rw [length]
    unfold SimulatedRun.record
    rw [List.length_append, List.length_singleton]
    omega

theorem grows_draws (drives : config.Drives openTime genesisFloor) {sales : Raw}
    (returned : (Simulator.draws config sales interval buyer).run before = (.ok run, after)) :
    Admits sales run.sales.length ∧ ∃ last, Grows openTime genesisFloor interval last run := by
  obtain ⟨count, between, opening, drawn, nonneg, opens, extended⟩ := draws_cases returned
  rw [drives.opens] at opens
  cases opens
  obtain ⟨length, last, final⟩ := grows_extend drives (grows_empty drives) extended
  have counted : (run.sales.length : Int) = count := by
    rw [length]
    show ((0 + count.toNat : Nat) : Int) = count
    omega
  rw [counted]
  exact ⟨admits_of_draw drawn, last, final⟩

theorem floors_pairwise (grows : Grows openTime genesisFloor interval time run) :
    run.floors.Pairwise (· ≤ ·) := by
  have at_ : ∀ (index : Nat) (inside : index < run.floors.length),
      (genesisFloor :: run.sales.map (·.price))[index]? = some run.floors[index] := by
    intro index inside
    have epochInside : index < run.epochs.length := by
      unfold floors at inside
      rwa [List.length_map] at inside
    have saleInside : index < run.sales.length := by
      rw [grows.paired]
      exact epochInside
    have linked := grows.linked index _ _ (List.getElem?_eq_getElem epochInside)
      (List.getElem?_eq_getElem saleInside)
    rw [linked.floor]
    simp [floors]
  rw [List.pairwise_iff_getElem]
  intro left right leftInside rightInside ordered
  obtain ⟨leftBound, leftFloor⟩ := List.getElem?_eq_some_iff.1 (at_ left leftInside)
  obtain ⟨rightBound, rightFloor⟩ := List.getElem?_eq_some_iff.1 (at_ right rightInside)
  rw [← leftFloor, ← rightFloor]
  exact List.pairwise_iff_getElem.1 grows.rising left right leftBound rightBound ordered

end SimulatedRun

/-! ## What a simulator takes -/

variable {config : Config Binary64} {seed : Option Int} {simulator : Simulator}

theorem ofConfig_cases (accepted : Simulator.ofConfig config seed = .ok simulator) :
    simulator.config = config ∧ config.accrual.all (· ≤ 0) = false ∧
      config.genesisPremium.isSome = true ∧ config.openTime.isSome = true ∧ ¬ config.k ≤ 0 := by
  unfold Simulator.ofConfig at accepted
  dsimp only at accepted
  split at accepted
  · cases accepted
  · next accrues =>
    split at accepted
    · cases accepted
    · next begins =>
      split at accepted
      · cases accepted
      · next opens =>
        split at accepted
        · cases accepted
        · next decays =>
          split at accepted
          · cases accepted
          · cases accepted
            refine ⟨rfl, Bool.eq_false_iff.2 accrues, ?_, ?_, decays⟩
            · exact Option.isSome_iff_ne_none.2 fun missing => begins (by rw [missing]; rfl)
            · exact Option.isSome_iff_ne_none.2 fun missing => opens (by rw [missing]; rfl)

theorem drives_of_ofConfig (accepted : Simulator.ofConfig config seed = .ok simulator)
    (decayFinite : config.k.isFinite = true)
    (accrualFinite : ∀ accrual, config.accrual = some accrual → accrual.isFinite = true)
    (openFinite : ∀ openTime, config.openTime = some openTime → openTime.isFinite = true) :
    ∃ openTime genesisFloor, config.genesisFloor = some genesisFloor ∧
      config.Drives openTime genesisFloor := by
  obtain ⟨_, accrues, begins, opens, decays⟩ := ofConfig_cases accepted
  obtain ⟨openTime, opens⟩ := Option.isSome_iff_exists.1 opens
  obtain ⟨premium, begun⟩ := Option.isSome_iff_exists.1 begins
  obtain ⟨genesisPrice, genesisFloor, priced, floored, usable⟩ := genesisPremium_cases begun
  have premiumFinite : (genesisPrice - genesisFloor).isFinite = true := by
    have parts := isUsable_iff.1 usable
    exact isFinite_iff.2 ⟨parts.1, by omega⟩
  refine ⟨openTime, genesisFloor, floored, opens, openFinite openTime opens,
    isFinite_of_isFinite_sub premiumFinite, ?_, ?_, genesisPrice, usable, ?_⟩
  · rw [isUsable_eq_not_le decayFinite, decide_eq_false decays]
    rfl
  · cases known : config.accrual with
    | none => simp [known] at accrues
    | some accrual =>
      have above : ¬ accrual ≤ 0 := by simpa [known] using accrues
      have accrualUsable : isUsable accrual = true := by
        rw [isUsable_eq_not_le (accrualFinite accrual known), decide_eq_false above]
        rfl
      exact ⟨accrual, rfl, pos_of_isUsable accrualUsable⟩
  · intro now
    unfold Config.genesisEpoch
    simp only [begun, floored, priced, opens]
    rfl

/-- Every history that a simulator returns has as many sales as were asked for, each with its epoch
and its number, each some seconds after the one before and no cheaper than the floor that the one
before has set; so the floors never fall. -/
theorem run_grows (accepted : Simulator.ofConfig config seed = .ok simulator)
    (decayFinite : config.k.isFinite = true)
    (accrualFinite : ∀ accrual, config.accrual = some accrual → accrual.isFinite = true)
    (openFinite : ∀ openTime, config.openTime = some openTime → openTime.isFinite = true)
    (generator : Random.Generator) (sales interval : Raw) (buyer : String) {run : SimulatedRun}
    {drawn : Simulator}
    (returned : ({ simulator with generator } : Simulator).run sales interval buyer =
      (.ok run, drawn)) :
    run.sales.length = run.epochs.length ∧ Admits sales run.sales.length ∧
    (∃ openTime genesisFloor,
      config.openTime = some openTime ∧ config.genesisFloor = some genesisFloor ∧
      ∀ (index : Nat) (epoch : Epoch Binary64) (sale : Sale Binary64),
        run.epochs[index]? = some epoch → run.sales[index]? = some sale →
        sale.tokenId = some (index : Int) ∧ epoch.index = index + 1 ∧
        (epoch.isGenesis = true ↔ index = 0) ∧
        (∃ prior seconds, (openTime :: run.sales.map (·.time))[index]? = some prior ∧
          1 ≤ seconds ∧ Admits interval seconds ∧ (ofInt seconds).isFinite = true ∧
          sale.time = prior + ofInt seconds) ∧
        (genesisFloor :: run.sales.map (·.price))[index]? = some epoch.floor ∧
        epoch.floor ≤ sale.price) ∧
    run.floors.Pairwise (· ≤ ·) := by
  obtain ⟨openTime, genesisFloor, floored, drives⟩ :=
    drives_of_ofConfig accepted decayFinite accrualFinite openFinite
  have same := (ofConfig_cases accepted).1
  have draws : (Simulator.draws config sales interval buyer).run generator =
      (.ok run, drawn.generator) := by
    rw [← same]
    unfold Simulator.run at returned
    dsimp only at returned
    generalize (Simulator.draws simulator.config sales interval buyer).run generator = result
      at returned ⊢
    obtain ⟨outcome, reached⟩ := result
    cases returned
    rfl
  obtain ⟨counted, last, grows⟩ := SimulatedRun.grows_draws drives draws
  refine ⟨grows.paired, counted, ⟨openTime, genesisFloor, drives.opens, floored, ?_⟩,
    SimulatedRun.floors_pairwise grows⟩
  intro index epoch sale epochAt saleAt
  have linked := grows.linked index epoch sale epochAt saleAt
  refine ⟨linked.tokenId, linked.number, ?_, linked.time, linked.floor, linked.paid⟩
  rw [linked.isGenesis, decide_eq_true_eq]

/-- A simulator of an auction that opens at ten over a floor of four. -/
def openingSimulator : Simulator where
  config := openingConfig
  generator := { state := 0, increment := 1 }

/-- Two sales, each from three to nine seconds after what came before it. -/
theorem run_grows_opening : ∃ run drawn,
    openingSimulator.run (.int 2) (.tuple [.int 3, .int 9]) = (.ok run, drawn) ∧
    run.sales.length = 2 ∧ run.epochs.length = 2 ∧
    (∀ (index : Nat) epoch sale, run.epochs[index]? = some epoch → run.sales[index]? = some sale →
      sale.tokenId = some (index : Int) ∧ epoch.index = index + 1 ∧
      (epoch.isGenesis = true ↔ index = 0) ∧
      (∃ prior seconds, ((0 : Binary64) :: run.sales.map (·.time))[index]? = some prior ∧
        3 ≤ seconds ∧ seconds ≤ 9 ∧ sale.time = prior + ofInt seconds) ∧
      (ofNat 4 :: run.sales.map (·.price))[index]? = some epoch.floor ∧
      epoch.floor ≤ sale.price) ∧
    run.floors.Pairwise (· ≤ ·) := by
  have succeeds : (openingSimulator.run (.int 2) (.tuple [.int 3, .int 9])).1.toBool = true := by
    decide +kernel
  obtain ⟨simulator, accepted⟩ : ∃ simulator, Simulator.ofConfig openingConfig (some 7) =
      .ok simulator := Outcome.exists_of_toBool (by decide +kernel)
  have same : ({ simulator with generator := openingSimulator.generator } : Simulator) =
      openingSimulator := by
    rw [(ofConfig_cases accepted).1]
    rfl
  cases ran : openingSimulator.run (.int 2) (.tuple [.int 3, .int 9]) with
  | mk outcome drawn =>
    rw [ran] at succeeds
    obtain ⟨run, rfl⟩ := Outcome.exists_of_toBool succeeds
    obtain ⟨paired, counted, ⟨openTime, genesisFloor, opens, floored, linked⟩, rising⟩ :=
      run_grows accepted (by decide +kernel)
        (fun accrual known => by cases known; decide +kernel)
        (fun openTime known => by cases known; decide +kernel) openingSimulator.generator (.int 2)
        (.tuple [.int 3, .int 9]) Simulator.standardBuyer (by rw [same]; exact ran)
    have two : run.sales.length = 2 := Int.ofNat.inj counted
    have opening : (0 : Binary64) = openTime := Option.some.inj opens
    have lowest : ofNat 4 = genesisFloor := Option.some.inj floored
    refine ⟨run, drawn, rfl, two, paired ▸ two, ?_, rising⟩
    intro index epoch sale epochAt saleAt
    obtain ⟨token, number, genesis, ⟨prior, seconds, found, _, within, _, time⟩, starts, paid⟩ :=
      linked index epoch sale epochAt saleAt
    refine ⟨token, number, genesis, ⟨prior, seconds, ?_, within.1, within.2, time⟩, ?_, paid⟩
    · rw [opening]
      exact found
    · rw [lowest]
      exact starts
end HyperbolicAuction
