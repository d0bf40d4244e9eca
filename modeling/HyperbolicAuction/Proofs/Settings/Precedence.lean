import HyperbolicAuction.Proofs.Settings.Bounds

/-!
# What decides a setting

A setting is decided by the first source that names it. Settings are accepted if each value that
decides one is read and keeps to its bounds; otherwise the report names the settings whose values
are bad, and no others.

Main statements: `decides_iff`, `settings_eq_ok_iff`, `settings_eq_error_iff`, `mem_causes_iff`.
-/

namespace HyperbolicAuction

open Outcome

namespace SettingsField

/-- The settings in the order in which they are reported. -/
def all : List SettingsField := [tokenDecimals, curveSteps, leastHalfLives, fallbackSeconds]

/-- Whether a name is that of a setting, as a rule compares names. -/
def IsNamed (rule : NameRule) (field : SettingsField) (name : String) : Prop :=
  rule.compared name = field.name

instance (rule : NameRule) (field : SettingsField) (name : String) :
    Decidable (field.IsNamed rule name) :=
  inferInstanceAs (Decidable (_ = _))

theorem name_injective {field other : SettingsField} (same : field.name = other.name) :
    field = other := by
  cases field <;> cases other <;> first | rfl | exact absurd same (by decide)

/-! ## What a value is read as -/

/-- A raw value that is read as a count between two bounds. -/
def ReadsCount (least greatest : Nat) (value : Raw) (count : Nat) : Prop :=
  readCount value = .ok (count : Int) ∧ least ≤ count ∧ count ≤ greatest

/-- A raw value that is read as a number above zero. -/
def ReadsPositive (value : Raw) (number : Binary64) : Prop :=
  readNumber value = .ok number ∧ 0 < number

/-- Whether a value of a setting can be read and keeps to the bounds of the setting. -/
def Accepts : SettingsField → Raw → Prop
  | tokenDecimals, value => ∃ count, ReadsCount 0 36 value count
  | curveSteps, value => ∃ count, ReadsCount 1 10000 value count
  | leastHalfLives, value => ∃ number, ReadsPositive value number
  | fallbackSeconds, value => ∃ number, ReadsPositive value number

theorem readBounded_eq_ok_iff {least greatest count : Nat} {value : Raw} :
    readBounded least greatest value = .ok count ↔ ReadsCount least greatest value count := by
  constructor
  · intro returned
    have bounds := bounds_of_readBounded returned
    unfold readBounded at returned
    obtain ⟨number, counted, checked⟩ := bind_eq_ok_iff.1 returned
    dsimp only at checked
    split at checked
    · cases checked
    · next atLeast =>
      split at checked
      · cases checked
      · cases checked
        have back : (number.toNat : Int) = number := by omega
        exact ⟨by rw [counted, back], bounds⟩
  · rintro ⟨counted, atLeast, atMost⟩
    unfold readBounded
    rw [counted, ok_do, if_neg (by omega), if_neg (by omega)]
    rfl

theorem readPositive_eq_ok_iff {value : Raw} {number : Binary64} :
    readPositive value = .ok number ↔ ReadsPositive value number := by
  constructor
  · intro returned
    have positive := pos_of_readPositive returned
    unfold readPositive at returned
    obtain ⟨read, numeric, checked⟩ := bind_eq_ok_iff.1 returned
    split at checked
    · cases checked
      exact ⟨numeric, positive⟩
    · cases checked
  · rintro ⟨numeric, positive⟩
    unfold readPositive
    rw [numeric, ok_do, if_pos positive]
    rfl

end SettingsField

namespace SettingsSources

open SettingsField

/-! ## The first source that names a setting -/

section Entries

variable {α : Type}

/-- Whether some entry has the name of a setting. -/
def Names (rule : NameRule) (entries : List (String × α)) (field : SettingsField) : Prop :=
  ∃ entry ∈ entries, field.IsNamed rule entry.1

/-- The value of the first entry with the name of a setting. -/
def IsFirst (rule : NameRule) (entries : List (String × α)) (field : SettingsField) (value : α) :
    Prop :=
  ∃ before name after, entries = before ++ (name, value) :: after ∧
    field.IsNamed rule name ∧ ¬ Names rule before field

/-- The value of the last entry with the name of a setting. -/
def IsLast (rule : NameRule) (entries : List (String × α)) (field : SettingsField) (value : α) :
    Prop :=
  ∃ before name after, entries = before ++ (name, value) :: after ∧
    field.IsNamed rule name ∧ ¬ Names rule after field

variable {rule : NameRule} {entries : List (String × α)} {field : SettingsField} {value : α}

theorem not_names_iff : ¬ Names rule entries field ↔
    ∀ entry ∈ entries, (rule.compared entry.1 == field.name) = false := by
  simp [Names, IsNamed]

theorem names_reverse : Names rule entries.reverse field ↔ Names rule entries field := by
  simp only [Names, List.mem_reverse]

theorem first?_eq_none_iff : first? rule entries field.name = none ↔ ¬ Names rule entries field := by
  rw [first?, Option.map_eq_none_iff, List.find?_eq_none, not_names_iff]
  simp only [Bool.not_eq_true]

theorem first?_eq_some_iff :
    first? rule entries field.name = some value ↔ IsFirst rule entries field value := by
  rw [first?, Option.map_eq_some_iff]
  constructor
  · rintro ⟨⟨name, _⟩, found, rfl⟩
    obtain ⟨named, before, after, split, passed⟩ := List.find?_eq_some_iff_append.1 found
    refine ⟨before, name, after, split, eq_of_beq named, not_names_iff.2 fun entry mem => ?_⟩
    exact by simpa using passed entry mem
  · rintro ⟨before, name, after, split, named, passed⟩
    refine ⟨(name, value), List.find?_eq_some_iff_append.2 ⟨beq_of_eq named, before, after, split, ?_⟩,
      rfl⟩
    intro entry mem
    rw [not_names_iff.1 passed entry mem]
    rfl

theorem last?_eq_none_iff : last? rule entries field.name = none ↔ ¬ Names rule entries field := by
  rw [last?, first?_eq_none_iff, names_reverse]

theorem last?_eq_some_iff :
    last? rule entries field.name = some value ↔ IsLast rule entries field value := by
  rw [last?, first?_eq_some_iff]
  constructor
  · rintro ⟨before, name, after, split, named, passed⟩
    refine ⟨after.reverse, name, before.reverse, ?_, named, mt names_reverse.1 passed⟩
    rw [← List.reverse_reverse entries, split]
    simp
  · rintro ⟨before, name, after, split, named, passed⟩
    refine ⟨after.reverse, name, before.reverse, ?_, named, mt names_reverse.1 passed⟩
    rw [split]
    simp

end Entries

/-- What decides a setting: the value under its name in the first source that has the name, or
nothing, which leaves the setting at its standard value. A name in an environment file may be
assigned nothing. -/
inductive Decides (sources : SettingsSources) (field : SettingsField) : Option Raw → Prop
  | inArguments {value : Raw} :
      IsFirst sources.argumentNames sources.arguments field value → Decides sources field (some value)
  | inEnvironment {text : String} :
      ¬ Names sources.argumentNames sources.arguments field →
      IsLast .folded sources.environment field text → Decides sources field (some (.text text))
  | inFile {assigned : Option String} :
      ¬ Names sources.argumentNames sources.arguments field →
      ¬ Names .folded sources.environment field → IsLast .folded sources.file field assigned →
      Decides sources field (assigned.map .text)
  | nowhere :
      ¬ Names sources.argumentNames sources.arguments field →
      ¬ Names .folded sources.environment field → ¬ Names .folded sources.file field →
      Decides sources field none

variable {sources : SettingsSources} {field : SettingsField}

theorem decides_iff {value : Option Raw} :
    Decides sources field value ↔ sources.value? field = value := by
  constructor
  · intro decided
    unfold value?
    cases decided with
    | inArguments first =>
      rw [first?_eq_some_iff.2 first]
      rfl
    | inEnvironment noArgument last =>
      rw [first?_eq_none_iff.2 noArgument, last?_eq_some_iff.2 last]
      rfl
    | inFile noArgument noVariable last =>
      rw [first?_eq_none_iff.2 noArgument, last?_eq_none_iff.2 noVariable, last?_eq_some_iff.2 last]
      rfl
    | nowhere noArgument noVariable noAssignment =>
      rw [first?_eq_none_iff.2 noArgument, last?_eq_none_iff.2 noVariable,
        last?_eq_none_iff.2 noAssignment]
      rfl
  · rintro rfl
    unfold value?
    cases argument : first? sources.argumentNames sources.arguments field.name with
    | some value => exact .inArguments (first?_eq_some_iff.1 argument)
    | none =>
      have noArgument := first?_eq_none_iff.1 argument
      cases held : last? .folded sources.environment field.name with
      | some text => exact .inEnvironment noArgument (last?_eq_some_iff.1 held)
      | none =>
        have noVariable := last?_eq_none_iff.1 held
        cases assignment : last? .folded sources.file field.name with
        | some assigned => exact .inFile noArgument noVariable (last?_eq_some_iff.1 assignment)
        | none => exact .nowhere noArgument noVariable (last?_eq_none_iff.1 assignment)

/-! ## Settings that are accepted -/

/-- What a setting is: the standard value if nothing decides it, or else what its value is read
as. -/
def Stands {α : Type} (reads : Raw → α → Prop) (standard : α) : Option Raw → α → Prop
  | none, result => result = standard
  | some value, result => reads value result

/-- Sources define the settings that their deciding values stand for. -/
structure Define (sources : SettingsSources) (settings : Settings Binary64) : Prop where
  tokenDecimals : ∃ value, Decides sources .tokenDecimals value ∧
    Stands (ReadsCount 0 36) (Settings.standard : Settings Binary64).tokenDecimals value
      settings.tokenDecimals
  curveSteps : ∃ value, Decides sources .curveSteps value ∧
    Stands (ReadsCount 1 10000) (Settings.standard : Settings Binary64).curveSteps value
      settings.curveSteps
  leastHalfLives : ∃ value, Decides sources .leastHalfLives value ∧
    Stands ReadsPositive Settings.standard.leastHalfLives value settings.leastHalfLives
  fallbackSeconds : ∃ value, Decides sources .fallbackSeconds value ∧
    Stands ReadsPositive Settings.standard.fallbackSeconds value settings.fallbackSeconds

section Reading

variable {α : Type} {reader : Raw → Except FieldError α} {reads : Raw → α → Prop}
  {standard result : α}

theorem read_eq_ok_iff (reading : ∀ {value result}, reader value = .ok result ↔ reads value result) :
    sources.read field reader standard = .ok result ↔
      ∃ value, Decides sources field value ∧ Stands reads standard value result := by
  simp only [decides_iff, exists_eq_left', read]
  cases sources.value? field with
  | none => exact ⟨fun returned => (Except.ok.inj returned).symm, fun same => congrArg _ same.symm⟩
  | some value => exact reading

/-- A setting that is read is reported if its value is bad. -/
theorem mem_report_iff (reading : ∀ {value result}, reader value = .ok result ↔ reads value result)
    {other : SettingsField} :
    (∃ cause, (other, cause) ∈ report field (sources.read field reader standard)) ↔
      other = field ∧ ∃ value, Decides sources field (some value) ∧ ¬ ∃ result, reads value result := by
  simp only [decides_iff, read, ← reading]
  cases sources.value? field with
  | none => simp [report]
  | some value => cases given : reader value <;> simp [report, given]

end Reading

theorem readBounded_iff {least greatest standard count : Nat} :
    sources.read field (readBounded least greatest) standard = .ok count ↔
      ∃ value, Decides sources field value ∧ Stands (ReadsCount least greatest) standard value count :=
  read_eq_ok_iff readBounded_eq_ok_iff

theorem readPositive_iff {standard number : Binary64} :
    sources.read field readPositive standard = .ok number ↔
      ∃ value, Decides sources field value ∧ Stands ReadsPositive standard value number :=
  read_eq_ok_iff readPositive_eq_ok_iff

/-! ## Settings that are reported -/

theorem exists_of_report_eq_nil {α : Type} {outcome : Except FieldError α}
    (none : report field outcome = []) : ∃ result, outcome = .ok result := by
  cases outcome with
  | ok result => exact ⟨result, rfl⟩
  | error cause => cases none

theorem report_sublist {α : Type} (outcome : Except FieldError α) :
    ((report field outcome).map (·.1)).Sublist [field] := by
  cases outcome with
  | ok result => exact List.nil_sublist _
  | error cause => exact List.Sublist.refl _

/-- The report on all settings, which is empty if none is bad. -/
def causes (sources : SettingsSources) : SettingsError :=
  let standard : Settings Binary64 := .standard
  report .tokenDecimals (sources.read .tokenDecimals (readBounded 0 36) standard.tokenDecimals) ++
    report .curveSteps (sources.read .curveSteps (readBounded 1 10000) standard.curveSteps) ++
    report .leastHalfLives
      (sources.read .leastHalfLives readPositive standard.leastHalfLives) ++
    report .fallbackSeconds (sources.read .fallbackSeconds readPositive standard.fallbackSeconds)

theorem settings_eq_ok_iff {settings : Settings Binary64} :
    sources.settings = .ok settings ↔ sources.Define settings := by
  constructor
  · intro accepted
    unfold SettingsSources.settings at accepted
    dsimp only at accepted
    split at accepted
    · next decimals steps least fallback =>
      cases accepted
      exact ⟨readBounded_iff.1 decimals, readBounded_iff.1 steps, readPositive_iff.1 least,
        readPositive_iff.1 fallback⟩
    · cases accepted
  · rintro ⟨decimals, steps, least, fallback⟩
    unfold SettingsSources.settings
    dsimp only
    rw [readBounded_iff.2 decimals, readBounded_iff.2 steps, readPositive_iff.2 least,
      readPositive_iff.2 fallback]

/-- Settings are accepted if there is nothing to report, and otherwise the report is returned. -/
theorem settings_cases (sources : SettingsSources) :
    (∃ settings, sources.settings = .ok settings ∧ sources.causes = []) ∨
      sources.settings = .error sources.causes ∧ sources.causes ≠ [] := by
  unfold SettingsSources.settings causes
  dsimp only
  split
  · next decimals steps least fallback =>
    rw [decimals, steps, least, fallback]
    exact .inl ⟨_, rfl, rfl⟩
  · next someBad =>
    refine .inr ⟨rfl, fun noneReported => ?_⟩
    simp only [List.append_eq_nil_iff] at noneReported
    obtain ⟨⟨⟨decimals, steps⟩, least⟩, fallback⟩ := noneReported
    obtain ⟨_, decimals⟩ := exists_of_report_eq_nil decimals
    obtain ⟨_, steps⟩ := exists_of_report_eq_nil steps
    obtain ⟨_, least⟩ := exists_of_report_eq_nil least
    obtain ⟨_, fallback⟩ := exists_of_report_eq_nil fallback
    exact someBad _ _ _ _ decimals steps least fallback

theorem settings_eq_error_iff {error : SettingsError} :
    sources.settings = .error error ↔ error = sources.causes ∧ sources.causes ≠ [] := by
  rcases settings_cases sources with ⟨settings, accepted, nothing⟩ | ⟨failed, something⟩
  · rw [accepted, nothing]
    simp
  · rw [failed]
    simp [something, eq_comm]

/-- A setting is reported exactly if the value that decides it is bad. -/
theorem mem_causes_iff : (∃ cause, (field, cause) ∈ sources.causes) ↔
    ∃ value, Decides sources field (some value) ∧ ¬ field.Accepts value := by
  unfold causes
  simp only [List.mem_append, exists_or, mem_report_iff readBounded_eq_ok_iff,
    mem_report_iff readPositive_eq_ok_iff]
  cases field <;> simp [Accepts]

/-- Settings are accepted exactly if no value that decides one is bad. -/
theorem exists_settings_iff : (∃ settings, sources.settings = .ok settings) ↔
    ∀ field value, Decides sources field (some value) → field.Accepts value := by
  have nothing : sources.causes = [] ↔
      ∀ field value, Decides sources field (some value) → field.Accepts value := by
    constructor
    · intro none field value decided
      refine Classical.byContradiction fun bad => ?_
      obtain ⟨cause, mem⟩ := mem_causes_iff.2 ⟨value, decided, bad⟩
      rw [none] at mem
      cases mem
    · intro accepted
      refine List.eq_nil_iff_forall_not_mem.2 fun ⟨field, cause⟩ mem => ?_
      obtain ⟨value, decided, bad⟩ := mem_causes_iff.1 ⟨cause, mem⟩
      exact bad (accepted field value decided)
  rcases settings_cases sources with ⟨settings, accepted, none⟩ | ⟨failed, some⟩
  · exact iff_of_true ⟨settings, accepted⟩ (nothing.1 none)
  · refine iff_of_false ?_ (mt nothing.2 some)
    rw [failed]
    exact fun ⟨_, accepted⟩ => nomatch accepted

/-- Each bad setting is reported once, in the order of the settings. -/
theorem causes_sublist : (sources.causes.map (·.1)).Sublist all := by
  unfold causes
  simp only [List.map_append]
  exact (((report_sublist _).append (report_sublist _)).append (report_sublist _)).append
    (report_sublist _)

end SettingsSources

end HyperbolicAuction
