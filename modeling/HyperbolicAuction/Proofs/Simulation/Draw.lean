import HyperbolicAuction.Proofs.Outcome
import HyperbolicAuction.Simulation.Draw

/-!
# What is drawn

A number that was drawn is the one that was asked for, or lies in the range that was asked for,
whatever the state of the generator.

Main statement: `admits_of_draw`.
-/

namespace HyperbolicAuction.Simulation

open HyperbolicAuction.Random

variable {α β : Type} {before after : Generator}

/-! ## Computations that draw -/

/-- A computation that returns has returned from each of its steps. -/
theorem Drawing.exists_of_bind {first : Drawing α} {next : α → Drawing β} {result : β}
    (returned : (first >>= next).run before = (.ok result, after)) :
    ∃ value between, first.run before = (.ok value, between) ∧
      (next value).run between = (.ok result, after) := by
  rw [ExceptT.run_bind] at returned
  cases stepped : first.run before with
  | mk outcome between =>
    cases outcome with
    | ok value =>
      refine ⟨value, between, rfl, ?_⟩
      simpa [bind, StateT.bind, stepped] using returned
    | error error =>
      simp [bind, StateT.bind, stepped] at returned
      cases returned

theorem Drawing.run_bind_of_ok {first : Drawing α} {next : α → Drawing β} {value : α}
    {between : Generator} (returned : first.run before = (.ok value, between)) :
    (first >>= next).run before = (next value).run between := by
  rw [ExceptT.run_bind]
  simp [bind, StateT.bind, returned]

theorem Drawing.of_pure {value result : α}
    (returned : (pure value : Drawing α).run before = (.ok result, after)) :
    value = result := by
  cases returned
  rfl

theorem Drawing.of_throw {error : SimulationError} {result : α}
    (returned : (throw error : Drawing α).run before = (.ok result, after)) : False := by
  cases returned

theorem Drawing.of_undrawn {outcome : Except SimulationError α} {result : α}
    (returned : (undrawn outcome).run before = (.ok result, after)) : outcome = .ok result := by
  cases outcome with
  | ok value =>
    cases returned
    rfl
  | error error => cases returned

/-! ## Numbers -/

/-- Whether a number is one of those that are asked for: the fixed one, or one of a range. -/
def Admits (asked : Raw) (number : Int) : Prop :=
  match asked with
  | .int value => number = value
  | .tuple [.int low, .int high] => low ≤ number ∧ number ≤ high
  | .tuple [low, high] =>
    ∃ first last, rangeBounds low high = .ok (first, last) ∧ first ≤ number ∧ number ≤ last
  | .tuple _ => False
  | value => fixedInteger value = .ok number

/-- What follows a refusal never comes to a result. -/
theorem Drawing.of_throw_bind {error : SimulationError} {next : α → Drawing β} {result : β}
    (returned : ((throw error : Drawing α) >>= next).run before = (.ok result, after)) : False := by
  obtain ⟨_, _, failed, _⟩ := exists_of_bind returned
  exact of_throw failed

theorem bounds_of_drawBetween {low high number : Int}
    (returned : (drawBetween low high).run before = (.ok number, after)) :
    low ≤ number ∧ number ≤ high := by
  unfold drawBetween at returned
  dsimp only at returned
  split at returned
  · exact (Drawing.of_throw_bind returned).elim
  · split at returned
    · exact (Drawing.of_throw_bind returned).elim
    · split at returned
      · exact (Drawing.of_throw_bind returned).elim
      · next ordered =>
        have chosen := Generator.choose_lt (Nat.succ_pos (high - low).toNat) before
        obtain ⟨offset, between, drawn, summed⟩ := Drawing.exists_of_bind returned
        have isChosen : offset = ((Generator.choose ((high - low).toNat + 1)).run before).1 := by
          cases drawn
          rfl
        have number_eq := Drawing.of_pure summed
        rw [← isChosen] at chosen
        omega

theorem rangeBounds_int {low high first last : Int}
    (bounded : rangeBounds (.int low) (.int high) = .ok (first, last)) :
    first = low ∧ last = high := by
  unfold rangeBounds at bounded
  obtain ⟨reversed, _, bounded⟩ := Outcome.bind_eq_ok_iff.1 bounded
  split at bounded
  · cases bounded
  · cases bounded
    exact ⟨rfl, by omega⟩

theorem admits_of_draw {asked : Raw} {number : Int}
    (returned : (draw asked).run before = (.ok number, after)) : Admits asked number := by
  unfold draw at returned
  split at returned
  · next low high =>
    obtain ⟨⟨first, last⟩, between, bounded, drawn⟩ := Drawing.exists_of_bind returned
    have ends := Drawing.of_undrawn bounded
    have within := bounds_of_drawBetween drawn
    unfold Admits
    split
    · cases ‹_›
    · next least greatest isRange =>
      cases isRange
      obtain ⟨rfl, rfl⟩ := rangeBounds_int ends
      exact within
    · next isRange =>
      cases isRange
      exact ⟨first, last, ends, within⟩
    · next notRange isTuple =>
      cases isTuple
      exact (notRange _ _ rfl).elim
    · next notRange => exact (notRange _ rfl).elim
  · split at returned
    · exact (Drawing.of_throw returned).elim
    · exact (Drawing.of_throw returned).elim
  · next value notRange notTuple =>
    have fixed := Drawing.of_undrawn returned
    unfold Admits
    split
    · cases fixed
      rfl
    · cases ‹_›
    · cases ‹_›
    · cases ‹_›
    · exact fixed

end HyperbolicAuction.Simulation
