/-!
# Computations that may fail

A sequence of steps returns exactly if each step does, and what it returns are their results in
order. It fails with the error of the first step that fails.
-/

namespace HyperbolicAuction.Outcome

variable {α β ε : Type}

theorem bind_eq_ok_iff {first : Except ε α} {next : α → Except ε β} {result : β} :
    (first >>= next) = .ok result ↔ ∃ value, first = .ok value ∧ next value = .ok result := by
  cases first with
  | error error => simp [bind, Except.bind]
  | ok value => simp [bind, Except.bind]

theorem bind_eq_error_iff {first : Except ε α} {next : α → Except ε β} {error : ε} :
    (first >>= next) = .error error ↔
      first = .error error ∨ ∃ value, first = .ok value ∧ next value = .error error := by
  cases first with
  | error cause => simp [bind, Except.bind]
  | ok value => simp [bind, Except.bind]

theorem mapError_eq_ok_iff {δ : Type} {first : Except ε α} {cause : ε → δ} {result : α} :
    first.mapError cause = .ok result ↔ first = .ok result := by
  cases first with
  | error error =>
    constructor
    · intro same
      cases same
    · intro same
      cases same
  | ok value =>
    constructor
    · exact fun same => congrArg _ (Except.ok.inj same)
    · exact fun same => congrArg _ (Except.ok.inj same)

theorem mapError_eq_error_iff {δ : Type} {first : Except ε α} {cause : ε → δ} {error : δ} :
    first.mapError cause = .error error ↔
      ∃ earlier, first = .error earlier ∧ cause earlier = error := by
  cases first with
  | error earlier =>
    constructor
    · exact fun same => ⟨earlier, rfl, Except.error.inj same⟩
    · rintro ⟨_, same, rfl⟩
      rw [Except.error.inj same]
      rfl
  | ok value =>
    constructor
    · intro same
      cases same
    · rintro ⟨_, same, _⟩
      cases same

theorem ok_bind (value : α) (next : α → Except ε β) : (Except.ok value).bind next = next value :=
  rfl

theorem ok_do (value : α) (next : α → Except ε β) : (Except.ok value >>= next) = next value := rfl

theorem error_bind (error : ε) (next : α → Except ε β) :
    (Except.error error).bind next = .error error := rfl

theorem exists_of_toBool {first : Except ε α} (returned : first.toBool = true) :
    ∃ value, first = .ok value := by
  cases first with
  | error error => cases returned
  | ok value => exact ⟨value, rfl⟩

theorem exists_of_map {first : Except ε α} {view : α → β} {result : β}
    (mapped : first.map view = .ok result) : ∃ value, first = .ok value ∧ view value = result := by
  cases first with
  | error error => cases mapped
  | ok value => exact ⟨value, rfl, Except.ok.inj mapped⟩

theorem exists_mapM_ok {items : List α} {step : α → Except ε β}
    (each : ∀ item ∈ items, ∃ result, step item = .ok result) :
    ∃ results, items.mapM step = .ok results := by
  induction items with
  | nil => exact ⟨[], rfl⟩
  | cons item rest ih =>
    obtain ⟨result, stepped⟩ := each item List.mem_cons_self
    obtain ⟨results, mapped⟩ := ih fun other inRest => each other (List.mem_cons_of_mem _ inRest)
    refine ⟨result :: results, ?_⟩
    rw [List.mapM_cons, stepped, mapped]
    rfl

/-- Where each step returns what a view shows, the results are the items as they are seen. -/
theorem mapM_eq_ok_map {items : List α} {step : α → Except ε β} {view : α → β}
    (each : ∀ item ∈ items, step item = .ok (view item)) :
    items.mapM step = .ok (items.map view) := by
  induction items with
  | nil => rfl
  | cons item rest ih =>
    rw [List.mapM_cons, each item List.mem_cons_self,
      ih fun other inRest => each other (List.mem_cons_of_mem _ inRest)]
    rfl

/-- Every result comes from an item. -/
theorem exists_of_mapM_ok {items : List α} {step : α → Except ε β} {results : List β}
    (mapped : items.mapM step = .ok results) :
    ∀ result ∈ results, ∃ item ∈ items, step item = .ok result := by
  induction items generalizing results with
  | nil =>
    cases mapped
    exact fun result mem => nomatch mem
  | cons item rest ih =>
    rw [List.mapM_cons] at mapped
    obtain ⟨first, stepped, mapped⟩ := bind_eq_ok_iff.1 mapped
    obtain ⟨others, restMapped, returned⟩ := bind_eq_ok_iff.1 mapped
    cases returned
    intro result mem
    rcases List.mem_cons.1 mem with isFirst | isOther
    · exact ⟨item, List.mem_cons_self, by rw [isFirst, stepped]⟩
    · obtain ⟨other, inRest, otherStepped⟩ := ih restMapped result isOther
      exact ⟨other, List.mem_cons_of_mem _ inRest, otherStepped⟩

theorem length_of_mapM_ok {items : List α} {step : α → Except ε β} {results : List β}
    (mapped : items.mapM step = .ok results) : results.length = items.length := by
  induction items generalizing results with
  | nil =>
    cases mapped
    rfl
  | cons item rest ih =>
    rw [List.mapM_cons] at mapped
    obtain ⟨first, _, mapped⟩ := bind_eq_ok_iff.1 mapped
    obtain ⟨others, restMapped, returned⟩ := bind_eq_ok_iff.1 mapped
    cases returned
    rw [List.length_cons, List.length_cons, ih restMapped]

/-- The results stand in the places of the items. -/
theorem getElem?_of_mapM_ok {items : List α} {step : α → Except ε β} {results : List β}
    (mapped : items.mapM step = .ok results) {index : Nat} {item : α}
    (found : items[index]? = some item) :
    ∃ result, results[index]? = some result ∧ step item = .ok result := by
  induction items generalizing results index with
  | nil => cases found
  | cons first rest ih =>
    rw [List.mapM_cons] at mapped
    obtain ⟨result, stepped, mapped⟩ := bind_eq_ok_iff.1 mapped
    obtain ⟨others, restMapped, returned⟩ := bind_eq_ok_iff.1 mapped
    cases returned
    cases index with
    | zero =>
      cases found
      exact ⟨result, rfl, stepped⟩
    | succ index => exact ih restMapped found

theorem mapM_concat_ok {items : List α} {item : α} {step : α → Except ε β} {results : List β}
    (mapped : (items ++ [item]).mapM step = .ok results) :
    ∃ before last, results = before ++ [last] ∧ step item = .ok last := by
  rw [List.mapM_append] at mapped
  obtain ⟨before, _, mapped⟩ := bind_eq_ok_iff.1 mapped
  obtain ⟨lastOnly, lastMapped, returned⟩ := bind_eq_ok_iff.1 mapped
  cases returned
  rw [List.mapM_cons] at lastMapped
  obtain ⟨last, stepped, returned⟩ := bind_eq_ok_iff.1 lastMapped
  cases returned
  exact ⟨before, last, rfl, stepped⟩

/-- What is read from an optional value is read from it, or there is none. -/
theorem option_mapM_cases {value : Option α} {step : α → Except ε β} {result : Option β}
    (mapped : value.mapM step = .ok result) :
    value = none ∧ result = none ∨
      ∃ item read, value = some item ∧ step item = .ok read ∧ result = some read := by
  cases value with
  | none =>
    cases mapped
    exact .inl ⟨rfl, rfl⟩
  | some item =>
    obtain ⟨read, stepped, returned⟩ := bind_eq_ok_iff.1 mapped
    cases returned
    exact .inr ⟨item, read, rfl, stepped, rfl⟩

theorem some_mapM_ok {item : α} {step : α → Except ε β} {result : β}
    (stepped : step item = .ok result) : (some item).mapM step = .ok (some result) := by
  rw [Option.mapM_some, stepped]
  rfl

/-- From a value something is read, if it can be read at all. -/
theorem some_mapM_ne_ok_none (item : α) (step : α → Except ε β) :
    (some item).mapM step ≠ .ok none := by
  intro mapped
  rcases option_mapM_cases mapped with ⟨missing, _⟩ | ⟨_, _, _, _, read⟩
  · cases missing
  · cases read

theorem mapM_cons_error {item : α} {rest : List α} {step : α → Except ε β} {error : ε}
    (failed : step item = .error error) : (item :: rest).mapM step = .error error := by
  rw [List.mapM_cons, failed]
  rfl

end HyperbolicAuction.Outcome
