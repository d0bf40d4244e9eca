import HyperbolicAuction.Proofs.Binary64.FixedForm
import HyperbolicAuction.Snapshot.Basic

/-!
# Displayed asks

A finite ask is displayed in the fixed form with two places, and no other ask is. Whoever reads two
displayed amounts therefore finds them in the order of the asks, though asks that differ by less
than a hundredth may be displayed alike.

Main statements: `displayAsk_eq_blank_iff`, `Displays.unique`, and `displayAsk_rounded`.
-/

namespace HyperbolicAuction.Snapshot

open Binary64

variable {snapshot other : Snapshot Binary64} {ask : Binary64}
  {amount otherAmount : Decimal.SignedNumeral}

/-- An amount is displayed, with its currency. -/
def Displays (snapshot : Snapshot Binary64) (amount : Decimal.SignedNumeral) : Prop :=
  snapshot.displayAsk = amount.text ++ " STRK"

/-- There is no ask that could be displayed. -/
inductive LacksFiniteAsk (snapshot : Snapshot Binary64) : Prop
  | none (absent : snapshot.ask = none)
  | nan (asks : snapshot.ask = some nan)
  | infinity (negative : Bool) (asks : snapshot.ask = some (infinity negative))

theorem lacksFiniteAsk_or_isFinite (snapshot : Snapshot Binary64) :
    snapshot.LacksFiniteAsk ∨ ∃ ask, snapshot.ask = some ask ∧ ask.isFinite = true := by
  cases asks : snapshot.ask with
  | none => exact .inl (.none asks)
  | some ask =>
    cases ask with
    | nan => exact .inl (.nan asks)
    | infinity negative => exact .inl (.infinity negative asks)
    | finite negative units representable => exact .inr ⟨_, rfl, rfl⟩

/-! ## What is displayed -/

theorem LacksFiniteAsk.displayAsk_eq (lacks : snapshot.LacksFiniteAsk) :
    snapshot.displayAsk = "N/A" := by
  unfold displayAsk
  cases lacks with
  | none absent => rw [absent, Option.bind_none]
  | nan asks => rw [asks, Option.bind_some, fixedText?_eq_none_iff.2 rfl]
  | infinity negative asks => rw [asks, Option.bind_some, fixedText?_eq_none_iff.2 rfl]

theorem exists_displays (asks : snapshot.ask = some ask) (finite_ : ask.isFinite = true) :
    ∃ amount, snapshot.Displays amount ∧ IsFixedForm 2 ask amount := by
  obtain ⟨amount, written, fixed⟩ := exists_fixedForm finite_ 2
  refine ⟨amount, ?_, fixed⟩
  unfold Displays displayAsk
  rw [asks, Option.bind_some, written]

/-- No amount reads as the mark for none. -/
theorem Displays.ne_blank (displays : snapshot.Displays amount) : snapshot.displayAsk ≠ "N/A" := by
  intro blank
  have last := congrArg (fun text : String => text.toList.getLast?) (displays.symm.trans blank)
  simp [String.toList_append, List.getLast?_append] at last

theorem displayAsk_eq_blank_iff : snapshot.displayAsk = "N/A" ↔ snapshot.LacksFiniteAsk := by
  refine ⟨fun blank => ?_, LacksFiniteAsk.displayAsk_eq⟩
  rcases snapshot.lacksFiniteAsk_or_isFinite with lacks | ⟨ask, asks, finite_⟩
  · exact lacks
  · obtain ⟨amount, displays, _⟩ := exists_displays asks finite_
    exact absurd blank displays.ne_blank

/-- There is but one amount to be read from what is displayed. -/
theorem Displays.unique (displays : snapshot.Displays amount)
    (displaysOther : snapshot.Displays otherAmount) : amount = otherAmount := by
  have texts := congrArg String.toList (displays.symm.trans displaysOther)
  rw [String.toList_append, String.toList_append] at texts
  exact Decimal.SignedNumeral.text_inj.1 (String.toList_inj.1 (List.append_cancel_right texts))

/-- What is displayed of an ask is its fixed form. -/
theorem Displays.isFixedForm (asks : snapshot.ask = some ask)
    (displays : snapshot.Displays amount) :
    IsFixedForm 2 ask amount := by
  rcases snapshot.lacksFiniteAsk_or_isFinite with lacks | ⟨_, asksFinite, finite_⟩
  · exact absurd lacks.displayAsk_eq displays.ne_blank
  · obtain rfl : _ = ask := Option.some.inj (asksFinite.symm.trans asks)
    obtain ⟨displayed, displaysFixed, fixed⟩ := exists_displays asks finite_
    rwa [displays.unique displaysFixed]

/-- Nothing is displayed exactly if there is no finite ask. Of a finite ask an amount is displayed
that has two places, is rounded to nearest and ties to even, and has the sign of the ask; and of two
asks the greater is displayed as no lesser amount. -/
theorem displayAsk_rounded (snapshot : Snapshot Binary64) :
    (snapshot.displayAsk = "N/A" ↔ snapshot.LacksFiniteAsk) ∧
    (∀ ask, snapshot.ask = some ask → ask.isFinite = true →
      ∃ amount, snapshot.Displays amount ∧ IsFixedForm 2 ask amount) ∧
    ∀ (other : Snapshot Binary64) ask otherAsk, snapshot.ask = some ask →
      other.ask = some otherAsk → ask ≤ otherAsk → ∀ amount otherAmount,
        snapshot.Displays amount → other.Displays otherAmount →
          amount.value ≤ otherAmount.value := by
  refine ⟨displayAsk_eq_blank_iff, fun ask => exists_displays, ?_⟩
  intro other ask otherAsk asks otherAsks ordered amount otherAmount displays otherDisplays
  exact (displays.isFixedForm asks).value_le ordered (otherDisplays.isFixedForm otherAsks)

/-- The ask is below zero, and displayed as nothing but its sign. -/
def faintAsk : Snapshot Binary64 := { status := .success, ask := some (.ofQuotient true 1 1024) }

/-- The ask is midway between two hundredths. -/
def midwayAsk : Snapshot Binary64 := { status := .success, ask := some (.ofQuotient false 1 8) }

theorem displayAsk_rounded_midway :
    faintAsk.displayAsk = "-0.00 STRK" ∧ midwayAsk.displayAsk = "0.12 STRK" ∧
      ofQuotient true 1 1024 ≤ ofQuotient false 1 8 ∧
      ∃ low high, faintAsk.Displays low ∧ midwayAsk.Displays high ∧
        IsFixedForm 2 (.ofQuotient true 1 1024) low ∧ IsFixedForm 2 (.ofQuotient false 1 8) high ∧
        low.value ≤ high.value := by
  have ordered : ofQuotient true 1 1024 ≤ ofQuotient false 1 8 := by decide +kernel
  obtain ⟨-, lowDisplayed, inOrder⟩ := displayAsk_rounded faintAsk
  obtain ⟨-, highDisplayed, -⟩ := displayAsk_rounded midwayAsk
  obtain ⟨low, displaysLow, lowFixed⟩ := lowDisplayed _ rfl (by decide +kernel)
  obtain ⟨high, displaysHigh, highFixed⟩ := highDisplayed _ rfl (by decide +kernel)
  exact ⟨by decide +kernel, by decide +kernel, ordered, low, high, displaysLow, displaysHigh,
    lowFixed, highFixed, inOrder midwayAsk _ _ rfl rfl ordered low high displaysLow displaysHigh⟩

end HyperbolicAuction.Snapshot
