import HyperbolicAuction.Basic
import HyperbolicAuction.Settings.EnvFile
import HyperbolicAuction.Settings.Field

/-!
# Where settings come from

A setting is decided by the first source that names it: the arguments, the environment, the
environment file, and the standard settings. Variables and assignments name a setting without regard
to case. What names one in the arguments is up to the library that takes them: it may go by the very
name, or disregard case as well. Entries that name no setting are passed over. Of the arguments of one
setting the first counts, of the variables and of the assignments in a file the last.

The bad settings are reported together, in the order of the fields.

Shared settings are read without arguments when they are first asked for, and held until they are
cleared. Settings that could not be read are not held.
-/

namespace HyperbolicAuction

/-- The variables of an environment, in the order in which they were first set. -/
abbrev Environment := List (String × String)

/-! ## Names -/

/-- A name in lower case. The sign of the kelvin is the one character beyond the capitals `A` to `Z`
that becomes one of `a` to `z`. -/
def foldName (name : String) : String :=
  String.ofList (name.toList.map fun c => if c = '\u212a' then 'k' else c.toLower)

/-- How the names of entries are compared with those of settings. -/
inductive NameRule where
  | exact
  /-- Without regard to case. -/
  | folded
deriving DecidableEq, Repr

/-- A name as it is compared. -/
def NameRule.compared : NameRule → String → String
  | exact, name => name
  | folded, name => foldName name

/-! ## Sources -/

/-- The sources of settings. -/
structure SettingsSources where
  arguments : List (String × Raw) := []
  /-- How the names of arguments are compared. -/
  argumentNames : NameRule := .folded
  environment : Environment := []
  /-- The assignments of an environment file. -/
  file : List (String × Option String) := []

/-- Which settings are bad, and why. -/
abbrev SettingsError := List (SettingsField × FieldError)

namespace SettingsSources

/-- The first entry of a name. -/
def first? {α : Type} (rule : NameRule) (entries : List (String × α)) (name : String) : Option α :=
  (entries.find? fun entry => rule.compared entry.1 == name).map (·.2)

/-- The last entry of a name. -/
def last? {α : Type} (rule : NameRule) (entries : List (String × α)) (name : String) : Option α :=
  first? rule entries.reverse name

/-- The value of a setting in the first source that names it. -/
def value? (sources : SettingsSources) (field : SettingsField) : Option Raw :=
  let argument := first? sources.argumentNames sources.arguments field.name
  let variable_ := last? .folded sources.environment field.name
  let assigned := (last? .folded sources.file field.name).join
  argument.or ((variable_.or assigned).map Raw.text)

/-- A setting, read from its value or standing at its standard value. -/
def read {α : Type} (sources : SettingsSources) (field : SettingsField)
    (reader : Raw → Except FieldError α) (standard : α) : Except FieldError α :=
  match sources.value? field with
  | none => .ok standard
  | some value => reader value

/-- The report on a setting that was read. -/
def report {α : Type} (field : SettingsField) : Except FieldError α → SettingsError
  | .ok _ => []
  | .error error => [(field, error)]

/-- The settings that the sources define together. -/
def settings (sources : SettingsSources) : Except SettingsError (Settings Binary64) :=
  let standard : Settings Binary64 := .standard
  let tokenDecimals := sources.read .tokenDecimals (SettingsField.readBounded 0 36)
    standard.tokenDecimals
  let curveSteps := sources.read .curveSteps (SettingsField.readBounded 1 10000)
    standard.curveSteps
  let leastHalfLives := sources.read .leastHalfLives SettingsField.readPositive
    standard.leastHalfLives
  let fallbackSeconds := sources.read .fallbackSeconds SettingsField.readPositive
    standard.fallbackSeconds
  match tokenDecimals, curveSteps, leastHalfLives, fallbackSeconds with
  | .ok tokenDecimals, .ok curveSteps, .ok leastHalfLives, .ok fallbackSeconds =>
    .ok { tokenDecimals, curveSteps, leastHalfLives, fallbackSeconds }
  | _, _, _, _ =>
    .error (report .tokenDecimals tokenDecimals ++ report .curveSteps curveSteps ++
      report .leastHalfLives leastHalfLives ++ report .fallbackSeconds fallbackSeconds)

end SettingsSources

/-- What a program finds around it: an environment, the text of an environment file, and a library
that takes the arguments of settings. -/
structure Surroundings where
  environment : Environment := []
  fileText : String := ""
  argumentNames : NameRule := .folded
deriving DecidableEq

namespace Surroundings

/-- The sources of settings, with some arguments. The references in the file are to its own
assignments and to the environment. -/
def sources (surroundings : Surroundings) (arguments : List (String × Raw)) : SettingsSources where
  arguments := arguments
  argumentNames := surroundings.argumentNames
  environment := surroundings.environment
  file := EnvFile.entries surroundings.environment surroundings.fileText

/-- The settings that are defined without arguments. -/
def settings (surroundings : Surroundings) : Except SettingsError (Settings Binary64) :=
  (surroundings.sources []).settings

end Surroundings

/-! ## Shared settings -/

/-- The shared settings, once they have been read. -/
structure SettingsCache where
  held : Option (Settings Binary64) := none
deriving DecidableEq

namespace SettingsCache

/-- The shared settings, and the cache after they have been asked for. -/
def get (cache : SettingsCache) (surroundings : Surroundings) :
    Except SettingsError (Settings Binary64) × SettingsCache :=
  match cache.held with
  | some settings => (.ok settings, cache)
  | none =>
    match surroundings.settings with
    | .ok settings => (.ok settings, { held := some settings })
    | .error error => (.error error, cache)

/-- A cache that holds nothing. -/
def clear (_ : SettingsCache) : SettingsCache := {}

end SettingsCache

end HyperbolicAuction
