import HyperbolicAuction.Session.Basic
import Mathlib.Control.Monad.Basic
import Mathlib.Data.List.Induction

/-!
# Shared settings over time

The environment and the environment file change, shared settings are asked for and cleared, and
engines are built, in any order. Whoever asks for the shared settings gets those that the environment
and the file defined when somebody first got them since they were last cleared, however both have
changed in between. An engine keeps the settings that it was built with.

Main statements: `tracks_run`, what is held after any steps; `engines_prefix_run`, engines stay;
`shared_settings_over_time`.
-/

namespace HyperbolicAuction

/-! ## Engines -/

/-- What an engine is asked. -/
inductive EngineQuery where
  | config (data : Raw)
  | sale (time price : Raw) (buyer : Option String) (tokenId : Raw)
  | snapshot (epoch : Epoch Binary64) (requested : Option Binary64) (steps : Option Int)

/-- What an engine answers. -/
inductive EngineAnswer where
  | config (outcome : Except AmountError (Config Binary64))
  | sale (outcome : Except AmountError (Sale Binary64))
  | snapshot (outcome : Except ArithmeticError (Snapshot Binary64))

/-- The answer of an engine with these settings. -/
def EngineQuery.answer (settings : Settings Binary64) : EngineQuery → EngineAnswer
  | config data => .config (Config.ofRaw data settings.tokenDecimals)
  | sale time price buyer tokenId =>
    .sale (Sale.ofRaw time price settings.tokenDecimals buyer tokenId)
  | snapshot epoch requested steps => .snapshot (Snapshot.ofEpoch settings epoch requested steps)

/-! ## Steps -/

/-- What there is around, the shared settings, and the settings of the engines in the order in which
they were built. -/
structure Host where
  surroundings : Surroundings
  shared : SettingsCache := {}
  engines : List (Settings Binary64) := []

/-- A step of a host. -/
inductive HostStep where
  /-- The environment becomes another. -/
  | change (environment : Environment)
  /-- The environment file gets another text. -/
  | rewrite (text : String)
  /-- The shared settings are asked for. -/
  | ask
  | clear
  /-- An engine is built with the settings that are given, or else with the shared ones. -/
  | build (given : Option (Settings Binary64))

/-- Whether a step asks for the shared settings. -/
def HostStep.Asks : HostStep → Prop
  | ask => True
  | build none => True
  | _ => False

namespace Host

/-- The shared settings, for a step that asks for them. -/
def asked (host : Host) : Except SettingsError (Settings Binary64) :=
  (host.shared.get host.surroundings).1

/-- A host whose shared settings have been asked for. -/
def ask (host : Host) : Host := { host with shared := (host.shared.get host.surroundings).2 }

/-- A host that has built an engine with the shared settings, if they can be read. -/
def buildShared (host : Host) : Host :=
  match host.asked with
  | .ok settings => { host.ask with engines := host.engines ++ [settings] }
  | .error _ => host.ask

/-- A host after a step. -/
def step (host : Host) : HostStep → Host
  | .change environment => { host with surroundings.environment := environment }
  | .rewrite text => { host with surroundings.fileText := text }
  | .ask => host.ask
  | .clear => { host with shared := host.shared.clear }
  | .build (some given) => { host with engines := host.engines ++ [given] }
  | .build none => host.buildShared

/-- What the engine in a place answers, if there is one. -/
def answer? (host : Host) (place : Nat) (query : EngineQuery) : Option EngineAnswer :=
  host.engines[place]?.map query.answer

/-- A new host after some steps. -/
def run (start : Surroundings) (steps : List HostStep) : Host :=
  steps.foldl step { surroundings := start }

/-! ## What is held -/

/-- After these steps, nobody has got the shared settings since they were last cleared. -/
inductive Unread (start : Surroundings) : List HostStep → Prop
  | new : Unread start []
  | cleared {steps : List HostStep} : Unread start (steps ++ [.clear])
  | quiet {steps : List HostStep} {next : HostStep} :
      Unread start steps → (next.Asks → ∃ error, (run start steps).asked = .error error) →
      Unread start (steps ++ [next])

/-- After these steps, these are the settings that the surroundings defined when somebody first got
the shared settings since they were last cleared. -/
def FirstRead (start : Surroundings) (steps : List HostStep) (settings : Settings Binary64) : Prop :=
  ∃ before first after,
    steps = before ++ first :: after ∧ Unread start before ∧ first.Asks ∧
      (∀ next ∈ after, next ≠ .clear) ∧
      (run start before).surroundings.settings = .ok settings

/-- What is held is what was read first, if anything has been read. -/
def Tracks (start : Surroundings) (steps : List HostStep) (shared : SettingsCache) : Prop :=
  match shared.held with
  | none => Unread start steps
  | some settings => FirstRead start steps settings

end Host

/-- Settings that are held are returned. Others are read, and held if they can be read. -/
theorem SettingsCache.get_cases (cache : SettingsCache) (surroundings : Surroundings) :
    (∃ settings, cache.held = some settings ∧ cache.get surroundings = (.ok settings, cache)) ∨
      cache.held = none ∧
        ((∃ settings, surroundings.settings = .ok settings ∧
            cache.get surroundings = (.ok settings, { held := some settings })) ∨
          ∃ error, surroundings.settings = .error error ∧
            cache.get surroundings = (.error error, cache)) := by
  unfold get
  cases held : cache.held with
  | some settings => exact .inl ⟨settings, rfl, rfl⟩
  | none =>
    cases read : surroundings.settings with
    | ok settings => exact .inr ⟨rfl, .inl ⟨settings, rfl, rfl⟩⟩
    | error error => exact .inr ⟨rfl, .inr ⟨error, rfl, rfl⟩⟩

namespace Host

variable {start : Surroundings} {steps : List HostStep} {next : HostStep}
  {settings : Settings Binary64}

theorem run_concat (start : Surroundings) (steps : List HostStep) (next : HostStep) :
    run start (steps ++ [next]) = (run start steps).step next := by
  unfold run
  rw [List.foldl_append]
  rfl

/-- Every step that asks has the same effect on the shared settings. -/
theorem shared_of_asks {host : Host} (asks : next.Asks) :
    (host.step next).shared = (host.shared.get host.surroundings).2 := by
  cases next with
  | change | rewrite | clear => cases asks
  | ask => rfl
  | build given =>
    cases given with
    | some given => cases asks
    | none =>
      change host.buildShared.shared = _
      unfold buildShared
      split <;> rfl

/-- A step that neither asks nor clears leaves the shared settings alone. -/
theorem shared_of_not_asks {host : Host} (asks : ¬ next.Asks) (kept : next ≠ .clear) :
    (host.step next).shared = host.shared := by
  cases next with
  | change | rewrite => rfl
  | ask => exact absurd trivial asks
  | clear => exact absurd rfl kept
  | build given =>
    cases given with
    | some given => rfl
    | none => exact absurd trivial asks

theorem FirstRead.concat (read : FirstRead start steps settings) (kept : next ≠ .clear) :
    FirstRead start (steps ++ [next]) settings := by
  obtain ⟨before, first, after, rfl, unread, asks, notCleared, defined⟩ := read
  refine ⟨before, first, after ++ [next], by simp, unread, asks, ?_, defined⟩
  intro step mem
  rcases List.mem_append.1 mem with isAfter | isNext
  · exact notCleared step isAfter
  · exact List.mem_singleton.1 isNext ▸ kept

theorem firstRead_of_unread (unread : Unread start steps) (asks : next.Asks)
    (defined : (run start steps).surroundings.settings = .ok settings) :
    FirstRead start (steps ++ [next]) settings :=
  ⟨steps, next, [], rfl, unread, asks, List.forall_mem_nil _, defined⟩

/-- What one step makes of the shared settings: one that asks finds settings held, reads them now, or
fails; the others clear them or leave them alone. -/
theorem tracks_step (next : HostStep) (tracks : Tracks start steps (run start steps).shared) :
    Tracks start (steps ++ [next]) ((run start steps).step next).shared := by
  by_cases asks : next.Asks
  · have kept : next ≠ .clear := by
      rintro rfl
      cases asks
    rw [shared_of_asks asks]
    unfold Tracks at tracks
    rcases SettingsCache.get_cases (run start steps).shared (run start steps).surroundings with
      ⟨settings, held, same⟩ | ⟨held, ⟨settings, defined, read⟩ | ⟨error, _, failed⟩⟩
    · rw [held] at tracks
      rw [same]
      unfold Tracks
      rw [held]
      exact tracks.concat kept
    · rw [held] at tracks
      rw [read]
      exact firstRead_of_unread tracks asks defined
    · rw [held] at tracks
      rw [failed]
      unfold Tracks
      rw [held]
      exact tracks.quiet fun _ => ⟨error, congrArg Prod.fst failed⟩
  · by_cases cleared : next = .clear
    · subst cleared
      exact .cleared
    · rw [shared_of_not_asks asks cleared]
      unfold Tracks at tracks ⊢
      split at tracks
      · exact tracks.quiet fun asked => absurd asked asks
      · exact tracks.concat cleared

theorem tracks_run (start : Surroundings) (steps : List HostStep) :
    Tracks start steps (run start steps).shared := by
  induction steps using List.reverseRecOn with
  | nil => exact .new
  | append_singleton steps next ih =>
    rw [run_concat]
    exact tracks_step next ih

/-! ## Engines stay -/

theorem engines_prefix_step (host : Host) (next : HostStep) :
    host.engines <+: (host.step next).engines := by
  cases next with
  | change | rewrite | ask | clear => exact List.prefix_rfl
  | build given =>
    cases given with
    | some given => exact List.prefix_append _ _
    | none =>
      change _ <+: host.buildShared.engines
      unfold buildShared
      split
      · exact List.prefix_append _ _
      · exact List.prefix_rfl

theorem engines_prefix_run (start : Surroundings) (steps later : List HostStep) :
    (run start steps).engines <+: (run start (steps ++ later)).engines := by
  induction later using List.reverseRecOn with
  | nil => exact (List.append_nil steps).symm ▸ List.prefix_rfl
  | append_singleton later next ih =>
    rw [← List.append_assoc, run_concat]
    exact ih.trans (engines_prefix_step _ next)

theorem answer?_of_engine {later : List HostStep} {place : Nat} (query : EngineQuery)
    (built : (run start steps).engines[place]? = some settings) :
    (run start (steps ++ later)).answer? place query = some (query.answer settings) := by
  obtain ⟨others, extended⟩ := engines_prefix_run start steps later
  have stays : (run start (steps ++ later)).engines[place]? = some settings := by
    rw [← extended, List.getElem?_append_left (List.getElem?_eq_some_iff.1 built).1, built]
  unfold answer?
  rw [stays]
  rfl

/-! ## Asking -/

theorem firstRead_of_asked (asks : next.Asks) (got : (run start steps).asked = .ok settings) :
    FirstRead start (steps ++ [next]) settings := by
  have tracks := tracks_run start (steps ++ [next])
  rw [run_concat, shared_of_asks asks] at tracks
  unfold asked at got
  rcases SettingsCache.get_cases (run start steps).shared (run start steps).surroundings with
    ⟨other, held, same⟩ | ⟨_, ⟨other, _, read⟩ | ⟨error, _, failed⟩⟩
  · rw [same] at got tracks
    cases got
    unfold Tracks at tracks
    rwa [held] at tracks
  · rw [read] at got tracks
    cases got
    exact tracks
  · rw [failed] at got
    cases got

theorem unread_of_asked {error : SettingsError} (asks : next.Asks)
    (failed : (run start steps).asked = .error error) :
    Unread start steps ∧ (run start (steps ++ [next])).shared = {} ∧
      (run start steps).surroundings.settings = .error error := by
  have tracks := tracks_run start steps
  rw [run_concat, shared_of_asks asks]
  unfold asked at failed
  rcases SettingsCache.get_cases (run start steps).shared (run start steps).surroundings with
    ⟨other, _, same⟩ | ⟨held, ⟨other, _, read⟩ | ⟨cause, refused, unheld⟩⟩
  · rw [same] at failed
    cases failed
  · rw [read] at failed
    cases failed
  · rw [unheld] at failed ⊢
    cases failed
    unfold Tracks at tracks
    rw [held] at tracks
    exact ⟨tracks, congrArg SettingsCache.mk held, refused⟩

/-- After any steps, whoever gets the shared settings gets those that the environment and the
environment file defined when somebody first got them since they were last cleared; whoever fails
leaves none held. An engine that is built with the shared settings has these, and an engine answers by
its settings ever after. -/
theorem shared_settings_over_time (start : Surroundings) (steps : List HostStep) :
    (∀ next settings, HostStep.Asks next → (run start steps).asked = .ok settings →
        FirstRead start (steps ++ [next]) settings) ∧
      (∀ next error, HostStep.Asks next → (run start steps).asked = .error error →
        Unread start steps ∧ (run start (steps ++ [next])).shared = {} ∧
          (run start steps).surroundings.settings = .error error) ∧
      (∀ settings, (run start steps).asked = .ok settings →
        (run start (steps ++ [.build none])).engines = (run start steps).engines ++ [settings]) ∧
      ∀ later place settings query, (run start steps).engines[place]? = some settings →
        (run start (steps ++ later)).answer? place query = some (query.answer settings) := by
  refine ⟨fun _ _ => firstRead_of_asked, fun _ _ => unread_of_asked, fun settings got => ?_,
    fun _ _ _ query => answer?_of_engine query⟩
  rw [run_concat]
  change (run start steps).buildShared.engines = _
  unfold buildShared
  rw [got]

/-- The shared settings cannot be read at first, then are, partly from the file, and outlast the next
changes; the engine keeps them when they have been cleared. -/
theorem shared_settings_over_time_changed :
    let start : Surroundings := { environment := [("TOKEN_DECIMALS", "x")] }
    let steps : List HostStep := [.ask, .change [("TOKEN_DECIMALS", "6")], .rewrite "CURVE_STEPS=7",
      .build none, .change [("TOKEN_DECIMALS", "8")], .rewrite "CURVE_STEPS=0"]
    let settings : Settings Binary64 :=
      { Settings.standard with tokenDecimals := 6, curveSteps := 7 }
    (run start [.ask]).shared = {} ∧ FirstRead start (steps ++ [.ask]) settings ∧
      ∀ query, (run start (steps ++ [.clear, .ask])).answer? 0 query =
        some (query.answer settings) := by
  intro start steps settings
  have failed : (run start []).asked = .error [(.tokenDecimals, .malformedCount)] := by
    decide +kernel
  have got : (run start steps).asked = .ok settings := by decide +kernel
  have built : (run start steps).engines[0]? = some settings := by decide +kernel
  obtain ⟨_, refusal, _, _⟩ := shared_settings_over_time start []
  obtain ⟨first, _, _, engine⟩ := shared_settings_over_time start steps
  exact ⟨(refusal .ask _ trivial failed).2.1, first .ask _ trivial got,
    fun query => engine _ 0 _ query built⟩

end Host

end HyperbolicAuction
