import HyperbolicAuction.Proofs.Entries
import HyperbolicAuction.Settings.EnvFile

/-!
# What the values of an environment file are made of

A value is its text with each reference replaced, by an earlier assignment to the name or else by a
variable. It depends on the names that it refers to, on those that their values refer to, and on no
others: whatever else the environment and the file hold may be changed.

Main statements: `expand_congr`, `agreeOn_entries`.
-/

namespace HyperbolicAuction.EnvFile

open Entries

/-! ## References -/

/-- The names that are referred to, in as many steps as are allowed. -/
def referencesWithin : Nat → List Char → List String
  | 0, _ => []
  | steps + 1, chars =>
    match chars with
    | [] => []
    | '$' :: '\x7b' :: rest =>
      match readReference? rest with
      | some (name, _, after) => name :: referencesWithin steps after
      | none => referencesWithin steps ('\x7b' :: rest)
    | _ :: rest => referencesWithin steps rest

/-- The names that a value refers to. -/
def references (value : List Char) : List String := referencesWithin (value.length + 1) value

variable {known other : List (String × Option String)}

theorem expandWithin_congr {steps : Nat} {chars : List Char}
    (same : ∀ name ∈ referencesWithin steps chars, valueOf? known name = valueOf? other name) :
    expandWithin known steps chars = expandWithin other steps chars := by
  induction steps generalizing chars with
  | zero => rfl
  | succ steps ih =>
    unfold expandWithin
    unfold referencesWithin at same
    split
    · rfl
    · next rest =>
      cases reference : readReference? rest with
      | none =>
        simp only [reference] at same
        exact congrArg _ (ih same)
      | some parts =>
        simp only [reference, List.forall_mem_cons] at same
        dsimp only
        rw [same.1, ih same.2]
    · next c rest noReference =>
      split at same
      · next empty => cases empty
      · next rest begun =>
        exact absurd begun (by simpa using noReference _)
      · next rest found =>
        cases found
        rw [ih same]

/-- A value depends on the names that it refers to. -/
theorem expand_congr {value : List Char}
    (same : ∀ name ∈ references value, valueOf? known name = valueOf? other name) :
    expand known value = expand other value :=
  congrArg String.ofList (expandWithin_congr same)

/-! ## Assignments -/

/-- The assignments of a text, before references are replaced. -/
def assignments (text : String) : List (String × Option (List Char)) :=
  (read text).map fun assignment => (String.ofList assignment.1, assignment.2)

/-- Entries with one more assigned. -/
def assign (outer assigned : List (String × Option String))
    (assignment : String × Option (List Char)) : List (String × Option String) :=
  set assigned assignment.1 (assignment.2.map (expand (outer ++ assigned)))

/-- The variables of an environment, as they are known to an environment file. -/
def ofEnvironment (environment : List (String × String)) : List (String × Option String) :=
  environment.map fun entry => (entry.1, some entry.2)

theorem entries_eq (environment : List (String × String)) (text : String) :
    entries environment text = (assignments text).foldl (assign (ofEnvironment environment)) [] := by
  unfold entries assignments
  rw [List.foldl_map]
  rfl

/-- Names with all those that their assigned values refer to. -/
def IsClosed (used : String → Prop) (assigned : List (String × Option (List Char))) : Prop :=
  ∀ name value, used name → (name, some value) ∈ assigned → ∀ named ∈ references value, used named

variable {used : String → Prop} {outer otherOuter : List (String × Option String)}
  {assigned otherAssigned : List (String × Option (List Char))}

theorem valueOf?_eq {name : String} (counted : used name) (agree : AgreeOn used known other) :
    valueOf? known name = valueOf? other name :=
  agree.reverse.lookup_eq counted

/-- An assignment that does not count is made on its side alone, and no value that counts refers to
it. -/
theorem agreeOn_foldl (outerAgree : AgreeOn used outer otherOuter)
    (agree : AgreeOn used assigned otherAssigned) (closed : IsClosed used assigned)
    (knownAgree : AgreeOn used known other) :
    AgreeOn used (assigned.foldl (assign outer) known)
      (otherAssigned.foldl (assign otherOuter) other) := by
  induction agree generalizing known other with
  | nil => exact knownAgree
  | both entry _ ih =>
    refine ih (fun name value counted mem => closed name value counted (.tail _ mem)) ?_
    by_cases counted : used entry.1
    · have value : entry.2.map (expand (outer ++ known)) =
          entry.2.map (expand (otherOuter ++ other)) := by
        refine Option.map_congr fun value given => expand_congr fun name named => ?_
        have mem : (entry.1, some value) = entry := Prod.ext rfl given.symm
        exact valueOf?_eq (closed _ value counted (mem ▸ List.mem_cons_self) name named)
          (outerAgree.append knownAgree)
      unfold assign
      rw [value]
      exact knownAgree.set_both counted _
    · exact (knownAgree.set_left counted _).set_right counted _
  | onlyLeft entry ignored _ ih =>
    exact ih (fun name value counted mem => closed name value counted (.tail _ mem))
      (knownAgree.set_left ignored _)
  | onlyRight entry ignored _ ih => exact ih closed (knownAgree.set_right ignored _)

/-- Environments and texts that agree on names that are closed give entries that do. -/
theorem agreeOn_entries {environment otherEnvironment : List (String × String)}
    {text otherText : String} (environmentAgree : AgreeOn used environment otherEnvironment)
    (agree : AgreeOn used (assignments text) (assignments otherText))
    (closed : IsClosed used (assignments text)) :
    AgreeOn used (entries environment text) (entries otherEnvironment otherText) := by
  rw [entries_eq, entries_eq]
  exact agreeOn_foldl (environmentAgree.map some) agree closed .nil

end HyperbolicAuction.EnvFile
