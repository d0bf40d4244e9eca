import HyperbolicAuction.Proofs.Outcome
import HyperbolicAuction.Proofs.Settings.History

/-!
# The settings of a session

A session is a host whose latest engine is in force: its steps change the environment, ask for the
shared settings, clear them and build engines, and what it reads and evaluates is what this engine
answers. What is known of shared settings over time is true of sessions, then.

Main statements: `goesWith_call`, one step of a session; `goesWith_calls`, any steps;
`firstRead_of_calls`, the shared settings that a session gets; `answer?_evaluate`.
-/

namespace HyperbolicAuction.Session

/-- A session and a host in the same surroundings, with the same shared settings. The settings in
force are those of the engine that was built last. -/
structure GoesWith (session : Session) (host : Host) : Prop where
  surroundings : session.surroundings = host.surroundings
  shared : session.shared = host.shared
  engine : host.engines.getLast? = some session.settings

variable {session : Session} {host : Host}

/-! ## What the steps do -/

theorem attempt_useSettings (arguments : Option (List (String × Raw))) (session : Session) :
    attempt (useSettings arguments) session =
      match settingsFrom arguments session.surroundings session.shared with
      | .ok (settings, shared) => (.ok settings, { session with settings, shared })
      | .error error => (.error (.settings error), session) := by
  unfold attempt
  simp only [useSettings, orFail, StateT.run_bind, StateT.run_get, pure_bind]
  cases settingsFrom arguments session.surroundings session.shared <;> rfl

theorem attempt_sharedSettings (session : Session) :
    attempt sharedSettings session =
      match settingsFrom none session.surroundings session.shared with
      | .ok (settings, shared) => (.ok settings, { session with shared })
      | .error error => (.error (.settings error), session) := by
  unfold attempt
  simp only [sharedSettings, orFail, StateT.run_bind, StateT.run_get, pure_bind]
  cases settingsFrom none session.surroundings session.shared <;> rfl

/-- The shared settings that a session reads are those that a host is asked for. -/
theorem settingsFrom_none (goes : session.GoesWith host) :
    settingsFrom none session.surroundings session.shared =
      host.asked.map fun settings => (settings, host.ask.shared) := by
  unfold settingsFrom Host.asked Host.ask
  rw [goes.surroundings, goes.shared]
  dsimp only
  cases host.shared.get host.surroundings with
  | mk outcome shared => cases outcome <;> rfl

/-- Asking for shared settings that cannot be read changes nothing. -/
theorem ask_of_error {error : SettingsError} (failed : host.asked = .error error) :
    host.ask = host := by
  unfold Host.asked at failed
  unfold Host.ask
  rcases host.shared.get_cases host.surroundings with
    ⟨_, _, same⟩ | ⟨_, ⟨_, _, read⟩ | ⟨_, _, unheld⟩⟩
  · rw [same]
  · rw [read] at failed
    cases failed
  · rw [unheld]

/-! ## The host that goes with a session -/

theorem goesWith_sharedSettings (goes : session.GoesWith host) :
    (attempt sharedSettings session).1 = host.asked.mapError .settings ∧
      (attempt sharedSettings session).2.GoesWith (host.step .ask) := by
  rw [attempt_sharedSettings, settingsFrom_none goes]
  cases asked : host.asked with
  | ok settings => exact ⟨rfl, goes.surroundings, rfl, goes.engine⟩
  | error error =>
    refine ⟨rfl, ?_⟩
    change session.GoesWith host.ask
    rwa [ask_of_error asked]

/-- A session that asks for the shared settings builds an engine with them. -/
theorem goesWith_useSettings_none (goes : session.GoesWith host) :
    (attempt (useSettings none) session).1 = host.asked.mapError .settings ∧
      (attempt (useSettings none) session).2.GoesWith (host.step (.build none)) := by
  rw [attempt_useSettings, settingsFrom_none goes]
  change _ ∧ GoesWith _ host.buildShared
  unfold Host.buildShared
  cases asked : host.asked with
  | ok settings => exact ⟨rfl, goes.surroundings, rfl, List.getLast?_concat⟩
  | error error =>
    refine ⟨rfl, ?_⟩
    change session.GoesWith host.ask
    rwa [ask_of_error asked]

/-- A session that is given arguments builds an engine with the settings that are defined with
these. -/
theorem goesWith_useSettings_some {arguments : List (String × Raw)} {settings : Settings Binary64}
    (goes : session.GoesWith host)
    (given : (host.surroundings.sources arguments).settings = .ok settings) :
    (attempt (useSettings (some arguments)) session).1 = .ok settings ∧
      (attempt (useSettings (some arguments)) session).2.GoesWith
        (host.step (.build (some settings))) := by
  have read : settingsFrom (some arguments) session.surroundings session.shared =
      .ok (settings, session.shared) := by
    unfold settingsFrom
    rw [goes.surroundings]
    dsimp only
    rw [given]
    rfl
  rw [attempt_useSettings, read]
  exact ⟨rfl, goes.surroundings, goes.shared, List.getLast?_concat⟩

theorem goesWith_clearShared (goes : session.GoesWith host) :
    (attempt clearShared session).2.GoesWith (host.step .clear) :=
  ⟨goes.surroundings, congrArg SettingsCache.clear goes.shared, goes.engine⟩

theorem goesWith_changeEnvironment (goes : session.GoesWith host)
    (change : Environment → Environment) :
    (attempt (changeEnvironment change) session).2.GoesWith
      (host.step (.change (change host.surroundings.environment))) := by
  obtain ⟨surroundings, shared, engine⟩ := goes
  refine ⟨?_, shared, engine⟩
  change { session.surroundings with environment := change session.surroundings.environment } = _
  rw [surroundings]
  rfl

/-! ## What the latest engine answers -/

theorem answer?_latest (goes : session.GoesWith host) (query : EngineQuery) :
    host.answer? (host.engines.length - 1) query = some (query.answer session.settings) := by
  unfold Host.answer?
  rw [← List.getLast?_eq_getElem?, goes.engine]
  rfl

theorem goesWith_readConfig (goes : session.GoesWith host) (data : Raw) :
    (attempt (readConfig data) session).2.GoesWith host := by
  unfold attempt
  simp only [readConfig, setConfig, orFail, StateT.run_bind, StateT.run_get, pure_bind]
  cases Config.ofRaw data session.settings.tokenDecimals with
  | ok config => exact ⟨goes.surroundings, goes.shared, goes.engine⟩
  | error error => exact goes

theorem answer?_readConfig (goes : session.GoesWith host) (data : Raw) :
    ∃ outcome, host.answer? (host.engines.length - 1) (.config data) = some (.config outcome) ∧
      (attempt (readConfig data) session).1 = outcome.mapError .amount := by
  refine ⟨_, answer?_latest goes _, ?_⟩
  unfold attempt
  simp only [readConfig, setConfig, orFail, StateT.run_bind, StateT.run_get, pure_bind]
  cases Config.ofRaw data session.settings.tokenDecimals <;> rfl

theorem goesWith_readSale (goes : session.GoesWith host) (time price : Raw)
    (buyer : Option String) (tokenId : Raw) :
    (attempt (readSale time price buyer tokenId) session).2.GoesWith host := by
  unfold attempt
  simp only [readSale, addSales, orFail, StateT.run_bind, StateT.run_get, pure_bind]
  cases Sale.ofRaw time price session.settings.tokenDecimals buyer tokenId with
  | ok sale => exact ⟨goes.surroundings, goes.shared, goes.engine⟩
  | error error => exact goes

theorem answer?_readSale (goes : session.GoesWith host) (time price : Raw)
    (buyer : Option String) (tokenId : Raw) :
    ∃ outcome, host.answer? (host.engines.length - 1) (.sale time price buyer tokenId) =
        some (.sale outcome) ∧
      (attempt (readSale time price buyer tokenId) session).1 = outcome.mapError .amount := by
  refine ⟨_, answer?_latest goes _, ?_⟩
  unfold attempt
  simp only [readSale, addSales, orFail, StateT.run_bind, StateT.run_get, pure_bind]
  cases Sale.ofRaw time price session.settings.tokenDecimals buyer tokenId <;> rfl

theorem goesWith_evaluate (goes : session.GoesWith host) (nowTime : Binary64)
    (requested : Option Binary64) (steps : Option Int) (count : Option Nat) :
    (attempt (evaluate nowTime requested steps count) session).2.GoesWith host := by
  unfold attempt
  simp only [evaluate, observe, orFail, StateT.run_bind, StateT.run_get, pure_bind]
  cases Snapshot.ofAuction session.settings session.config
    (count.elim session.sales session.sales.take) nowTime requested steps with
  | ok snapshot => exact ⟨goes.surroundings, goes.shared, goes.engine⟩
  | error error => exact goes

/-- An evaluation of a live epoch is what the latest engine answers. -/
theorem answer?_evaluate (goes : session.GoesWith host) {config : Config Binary64}
    {epoch : Epoch Binary64} {nowTime : Binary64} {count : Option Nat}
    (known : session.config = some config)
    (live : liveEpoch config (count.elim session.sales session.sales.take) nowTime = some epoch)
    (requested : Option Binary64) (steps : Option Int) :
    ∃ outcome, host.answer? (host.engines.length - 1) (.snapshot epoch requested steps) =
        some (.snapshot outcome) ∧
      (attempt (evaluate nowTime requested steps count) session).1 =
        outcome.mapError .arithmetic := by
  have evaluated : Snapshot.ofAuction session.settings session.config
      (count.elim session.sales session.sales.take) nowTime requested steps =
      Snapshot.ofEpoch session.settings epoch requested steps := by
    unfold Snapshot.ofAuction
    rw [known]
    dsimp only
    rw [live]
  refine ⟨_, answer?_latest goes _, ?_⟩
  unfold attempt
  simp only [evaluate, observe, orFail, evaluated, StateT.run_bind, StateT.run_get, pure_bind]
  cases Snapshot.ofEpoch session.settings epoch requested steps <;> rfl

/-! ## Any steps -/

/-- The steps of a session that read settings or are decided by them. -/
inductive Call where
  | useSettings (arguments : Option (List (String × Raw)))
  | sharedSettings
  | clearShared
  | setVariables (entries : List (String × String))
  | unsetVariables (names : List String)
  | readConfig (data : Raw)
  | readSale (time price : Raw) (buyer : Option String) (tokenId : Raw)
  | evaluate (nowTime : Binary64) (requested : Option Binary64) (steps : Option Int)
      (count : Option Nat)

namespace Call

/-- The session after a step. -/
def after (session : Session) : Call → Session
  | useSettings arguments => (attempt (Session.useSettings arguments) session).2
  | sharedSettings => (attempt Session.sharedSettings session).2
  | clearShared => (attempt Session.clearShared session).2
  | setVariables entries => (attempt (Session.setVariables entries) session).2
  | unsetVariables names => (attempt (Session.unsetVariables names) session).2
  | readConfig data => (attempt (Session.readConfig data) session).2
  | readSale time price buyer tokenId =>
    (attempt (Session.readSale time price buyer tokenId) session).2
  | evaluate nowTime requested steps count =>
    (attempt (Session.evaluate nowTime requested steps count) session).2

/-- What a host does where a session takes a step. Arguments that define no settings build no
engine. -/
def hostSteps (session : Session) : Call → List HostStep
  | useSettings none => [.build none]
  | useSettings (some arguments) =>
    match (session.surroundings.sources arguments).settings with
    | .ok settings => [.build (some settings)]
    | .error _ => []
  | sharedSettings => [.ask]
  | clearShared => [.clear]
  | setVariables entries => [.change (Entries.setAll session.surroundings.environment entries)]
  | unsetVariables names => [.change (names.foldl Entries.unset session.surroundings.environment)]
  | readConfig _ | readSale .. | evaluate .. => []

/-- What a host does where a session takes some steps. -/
def allHostSteps (session : Session) : List Call → List HostStep
  | [] => []
  | call :: rest => call.hostSteps session ++ allHostSteps (call.after session) rest

end Call

theorem goesWith_call (goes : session.GoesWith host) (call : Call) :
    (call.after session).GoesWith ((call.hostSteps session).foldl Host.step host) := by
  cases call with
  | useSettings arguments =>
    cases arguments with
    | none => exact (goesWith_useSettings_none goes).2
    | some arguments =>
      unfold Call.hostSteps
      dsimp only
      cases given : (session.surroundings.sources arguments).settings with
      | ok settings => exact (goesWith_useSettings_some goes (goes.surroundings ▸ given)).2
      | error error =>
        have refused : settingsFrom (some arguments) session.surroundings session.shared =
            .error error := by
          unfold settingsFrom
          dsimp only
          rw [given]
          rfl
        unfold Call.after
        dsimp only
        rw [attempt_useSettings, refused]
        exact goes
  | sharedSettings => exact (goesWith_sharedSettings goes).2
  | clearShared => exact goesWith_clearShared goes
  | setVariables entries =>
    have next := goesWith_changeEnvironment goes (Entries.setAll · entries)
    rwa [← goes.surroundings] at next
  | unsetVariables names =>
    have next := goesWith_changeEnvironment goes (names.foldl Entries.unset ·)
    rwa [← goes.surroundings] at next
  | readConfig data => exact goesWith_readConfig goes data
  | readSale time price buyer tokenId => exact goesWith_readSale goes time price buyer tokenId
  | evaluate nowTime requested steps count =>
    exact goesWith_evaluate goes nowTime requested steps count

theorem goesWith_calls (goes : session.GoesWith host) (calls : List Call) :
    (calls.foldl Call.after session).GoesWith
      ((Call.allHostSteps session calls).foldl Host.step host) := by
  induction calls generalizing session host with
  | nil => exact goes
  | cons call rest ih =>
    rw [List.foldl_cons, Call.allHostSteps, List.foldl_append]
    exact ih (goesWith_call goes call)

/-- A new session is a host that has built an engine with the settings that the session starts
with. -/
theorem goesWith_start {arguments : List (String × Raw)} {config : Option (Config Binary64)}
    {surroundings : Surroundings} (started : start arguments config surroundings = .ok session) :
    session.GoesWith (Host.run surroundings [.build (some session.settings)]) := by
  unfold start at started
  obtain ⟨settings, _, returned⟩ := Outcome.bind_eq_ok_iff.1 started
  cases returned
  exact ⟨rfl, rfl, rfl⟩

/-- Whatever steps a session has taken, the shared settings that it gets are those that its
surroundings defined when they were first got since they were last cleared. -/
theorem firstRead_of_calls {arguments : List (String × Raw)} {config : Option (Config Binary64)}
    {surroundings : Surroundings} {calls : List Call} {settings : Settings Binary64}
    (started : start arguments config surroundings = .ok session)
    (got : (attempt sharedSettings (calls.foldl Call.after session)).1 = .ok settings) :
    Host.FirstRead surroundings
      (.build (some session.settings) :: Call.allHostSteps session calls ++ [.ask]) settings := by
  have goes := goesWith_calls (goesWith_start started) calls
  have ran : (Call.allHostSteps session calls).foldl Host.step
      (Host.run surroundings [.build (some session.settings)]) =
      Host.run surroundings
        (.build (some session.settings) :: Call.allHostSteps session calls) := rfl
  rw [(goesWith_sharedSettings goes).1, ran] at got
  refine Host.firstRead_of_asked trivial ?_
  cases asked : (Host.run surroundings (.build (some session.settings) ::
      Call.allHostSteps session calls)).asked with
  | ok read =>
    rw [asked] at got
    cases got
    rfl
  | error error =>
    rw [asked] at got
    cases got

end HyperbolicAuction.Session
