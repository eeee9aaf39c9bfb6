import FmSdrTuner.Framework.Machine
import FmSdrTuner.XdrServer.Rds
import FmSdrTuner.Control.CommandState
import FmSdrTuner.Control.TunerSession

/-! # The main loop and its clients

    `Application::run` polls, step by step, the flags that client threads
    set, and drives the tuner, the scan engine and the tuner session. The
    model takes one access to shared memory at a time: `Pc` says where the
    main loop is, and between any two of its steps clients and the RDS
    worker may write.

    Command bodies of XDR and FM-DX clients run under `m_callbackMutex`,
    so at most one is in progress, whatever the number of clients; REST
    requests are handled by one thread. What each of them has still to
    write is kept as a list. Requests made outside the mutex are single
    writes and happen at once: an empty XDR line or the disconnect of an
    XDR client cancels the scan, FM-DX clients start and stop the tuner.

    Left out is what takes no part in requests: audio, DSP, gain, the
    contents of a scan, and how the adaptive bandwidth chooses. -/

namespace FmSdrTuner

/-! ### State -/

/-- `ScanEngine`. -/
structure ScanEngine where
  active : Bool
  config : ScanConfig
  restoreFreqHz : Nat
  restoreBandwidthHz : Int
  deriving DecidableEq, Repr

/-- The fields that `consumeScanStart` copies, in its order. -/
inductive ScanField where
  | startKHz | stopKHz | stepKHz | bandwidthHz | antenna | continuous
  deriving DecidableEq, Repr

def scanFields : List ScanField :=
  [.startKHz, .stopKHz, .stepKHz, .bandwidthHz, .antenna, .continuous]

/-- Load one field of the server's scan configuration. -/
def ScanField.load (server : XDRServer) (config : ScanConfig) : ScanField → ScanConfig
  | .startKHz => { config with startKHz := server.scan.startKHz }
  | .stopKHz => { config with stopKHz := server.scan.stopKHz }
  | .stepKHz => { config with stepKHz := server.scan.stepKHz }
  | .bandwidthHz => { config with bandwidthHz := server.scan.bandwidthHz }
  | .antenna => { config with antenna := server.scan.antenna }
  | .continuous => { config with continuous := server.scan.continuous }

/-- Who called `restoreAfterScan`: `handleControl` or `runIfActive`. -/
inductive RestoreCaller where
  | handleControl
  | runIfActive
  deriving DecidableEq, Repr

/-- The next step of the main loop, grouped by the function it belongs to. -/
inductive Pc where
  -- `Application::run`
  | pollStop
  | clearStart
  | stopTuner
  | pollStart
  | startTuner
  -- `ScanEngine::handleControl`
  | control
  | scanStart (currentFreqHz : Nat)
  | scanConfig (currentFreqHz : Nat) (fields : List ScanField) (config : ScanConfig)
  | scanBandwidth
  | scanBandwidthPending
  | scanCancel
  -- `restoreAfterScan`
  | restoreBandwidth (freqHz : Nat) (bandwidthHz : Int) (caller : RestoreCaller)
  | restoreBandwidthPending (freqHz : Nat) (caller : RestoreCaller)
  | restoreFrequency (freqHz : Nat) (caller : RestoreCaller)
  | restoreFrequencyPending (freqHz : Nat) (caller : RestoreCaller)
  | restoreTune (freqHz : Nat) (caller : RestoreCaller)
  -- `handleControlAndScan`
  | pollFrequency
  | loadFrequency
  | tune (freqHz : Nat)
  | compareFrequency (freqHz : Nat)
  | clearPi (freqHz : Nat)
  | storeFrequency (freqHz : Nat)
  | pollGain
  | pollAgc
  | pollBandwidth
  | loadBandwidth
  -- `ScanEngine::runIfActive`
  | runScan
  | sweep
  | sweepTune (centerHz : Nat)
  | fallback
  | finishScan
  -- reading IQ samples
  | read
  -- `maybeAdjustAdaptiveBandwidth`
  | adaptBandwidth (bandwidthHz : Int)
  | adaptBandwidthPending
  deriving DecidableEq, Repr

structure Application where
  server : XDRServer
  commands : XdrCommandState
  pendingStartRequest : Bool
  pendingStopRequest : Bool
  tunerActive : Bool
  session : TunerSession
  scanEngine : ScanEngine
  /-- The last frequency that the tuner accepted. -/
  tunedHz : Nat
  appliedBandwidthHz : Int
  pc : Pc
  /-- What the command that holds `m_callbackMutex` has still to write. -/
  clientWrites : List Write
  /-- What the REST request in progress has still to write. -/
  restWrites : List Write
  deriving DecidableEq, Repr

/-- What is fixed at start-up. -/
structure AppConfig where
  facade : FacadeOptions
  session : SessionParams

/-- The application as it enters the main loop, not started yet. A start at
    launch (`--auto-start`) is treated as a request made before the first poll. -/
def Application.initial (commands : XdrCommandState) : Application where
  server := { XDRServer.initial with frequency := commands.requestedFrequencyHz }
  commands := commands
  pendingStartRequest := false
  pendingStopRequest := false
  tunerActive := false
  session := ⟨false, 0⟩
  scanEngine := ⟨false, {}, 0, 0⟩
  tunedHz := commands.requestedFrequencyHz
  appliedBandwidthHz := commands.requestedBandwidthHz
  pc := .pollStop
  clientWrites := []
  restWrites := []

/-! ### Steps of the main loop -/

/-- What the environment decides about one step of the main loop. -/
structure Env where
  /-- Does `tunerSetFrequency` succeed? -/
  tuneOk : Bool
  answers : TunerAnswers
  /-- Does the read return samples? -/
  readOk : Bool
  /-- `shouldRun()`. -/
  running : Bool
  /-- The next centre that a sweep or its fallback retunes to, if any: it
      depends on the sample rate and on the spectrum received. -/
  center : Option Nat
  /-- The bandwidth that the adaptive bandwidth, if it is on, changes to
      after a read: it depends on the signal and on time. -/
  adaptive : Option Int
  deriving DecidableEq, Repr

/-- Where a restore returns to: to `handleControlAndScan`, or, after a
    sweep, to the top of the loop. -/
def RestoreCaller.resume : RestoreCaller → Pc
  | .handleControl => .pollFrequency
  | .runIfActive => .pollStop

namespace Application

/-- The tuned frequency after a connection attempt. -/
def tunedAfter (s : Application) (answers : TunerAnswers) (calls : List TunerCall) : Nat :=
  if answers.okFreq && calls.contains (.setFrequency s.commands.requestedFrequencyHz) then
    s.commands.requestedFrequencyHz
  else s.tunedHz

/-- One step of the main loop, with the calls of the tuner it makes. -/
def mainStep (cfg : AppConfig) (s : Application) (env : Env) : Application × List TunerCall :=
  match s.pc with
  | .pollStop =>
      -- `pendingStopRequest.exchange(false)`
      ({ s with
          pendingStopRequest := false
          pc := if s.pendingStopRequest then .clearStart else .pollStart }, [])
  | .clearStart => ({ s with pendingStartRequest := false, pc := .stopTuner }, [])
  | .stopTuner =>
      -- `tunerActive` is only looked at by this thread, so its store and the
      -- disconnect are one step
      let disconnected := s.session.disconnect
      ({ s with tunerActive := false, session := disconnected.1, pc := .pollStart },
        disconnected.2)
  | .pollStart =>
      -- a start while the tuner is active is taken and ignored
      ({ s with
          pendingStartRequest := false
          pc := if s.tunerActive then .control
            else if s.pendingStartRequest then .startTuner else .pollStop }, [])
  | .startTuner =>
      let connected := s.session.connect cfg.session env.answers s.commands.requestedFrequencyHz
      ({ s with
          session := connected.1
          tunerActive := connected.1.rtlConnected
          tunedHz := s.tunedAfter env.answers connected.2
          pc := if connected.1.rtlConnected then .control else .pollStop }, connected.2)
  -- the argument `requestedFrequencyHz.load()` of `handleControl`
  | .control => ({ s with pc := .scanStart s.commands.requestedFrequencyHz }, [])
  | .scanStart currentFreqHz =>
      -- `consumeScanStart`: the exchange, then one load for each field
      ({ s with
          server.scanStartPending := false
          pc := if s.server.scanStartPending then .scanConfig currentFreqHz scanFields {}
            else .scanCancel }, [])
  | .scanConfig currentFreqHz (field :: fields) config =>
      ({ s with pc := .scanConfig currentFreqHz fields (field.load s.server config) }, [])
  | .scanConfig currentFreqHz [] config =>
      -- a start is taken whether or not a scan is active
      ({ s with
          scanEngine := ⟨true, config, currentFreqHz, s.appliedBandwidthHz⟩
          pc := if 0 < config.bandwidthHz then .scanBandwidth else .scanCancel }, [])
  | .scanBandwidth =>
      ({ s with
          commands.requestedBandwidthHz := s.scanEngine.config.bandwidthHz
          pc := .scanBandwidthPending }, [])
  | .scanBandwidthPending =>
      ({ s with commands.pendingBandwidth := true, pc := .scanCancel }, [])
  | .scanCancel =>
      -- `consumeScanCancel()`, and `wasActive` is what the start left
      let cancel := s.server.scanCancelPending
      ({ s with
          server.scanCancelPending := false
          scanEngine.active := s.scanEngine.active && !cancel
          pc := if cancel && s.scanEngine.active && s.session.rtlConnected then
              .restoreBandwidth s.scanEngine.restoreFreqHz s.scanEngine.restoreBandwidthHz
                .handleControl
            else .pollFrequency }, [])
  | .restoreBandwidth freqHz bandwidthHz caller =>
      ({ s with
          commands.requestedBandwidthHz := bandwidthHz
          pc := .restoreBandwidthPending freqHz caller }, [])
  | .restoreBandwidthPending freqHz caller =>
      ({ s with commands.pendingBandwidth := true, pc := .restoreFrequency freqHz caller }, [])
  | .restoreFrequency freqHz caller =>
      ({ s with
          commands.requestedFrequencyHz := freqHz
          pc := .restoreFrequencyPending freqHz caller }, [])
  | .restoreFrequencyPending freqHz caller =>
      ({ s with commands.pendingFrequency := true, pc := .restoreTune freqHz caller }, [])
  | .restoreTune freqHz caller =>
      -- the answer of this retune is ignored
      if s.session.rtlConnected then
        ({ s with tunedHz := if env.tuneOk then freqHz else s.tunedHz, pc := caller.resume },
          [.setFrequency freqHz])
      else ({ s with pc := caller.resume }, [])
  | .pollFrequency =>
      -- `rtlConnected && pendingFrequency.exchange(false)`
      if s.session.rtlConnected then
        ({ s with
            commands.pendingFrequency := false
            pc := if s.commands.pendingFrequency then .loadFrequency else .pollGain }, [])
      else ({ s with pc := .pollGain }, [])
  | .loadFrequency => ({ s with pc := .tune s.commands.requestedFrequencyHz }, [])
  | .tune freqHz =>
      ({ s with
          tunedHz := if env.tuneOk then freqHz else s.tunedHz
          pc := if env.tuneOk then .compareFrequency freqHz else .pollGain },
        [.setFrequency freqHz])
  | .compareFrequency freqHz =>
      -- `setFrequencyState`, first its two comparisons
      ({ s with
          pc := if freqHz = 0 then .pollGain
            else if freqHz ≠ s.server.frequency then .clearPi freqHz
            else .storeFrequency freqHz }, [])
  | .clearPi freqHz =>
      ({ s with server.pi := PiHistory.cleared, pc := .storeFrequency freqHz }, [])
  | .storeFrequency freqHz => ({ s with server.frequency := freqHz, pc := .pollGain }, [])
  | .pollGain => ({ s with commands.pendingGain := false, pc := .pollAgc }, [])
  | .pollAgc => ({ s with commands.pendingAGC := false, pc := .pollBandwidth }, [])
  | .pollBandwidth =>
      ({ s with
          commands.pendingBandwidth := false
          pc := if s.commands.pendingBandwidth then .loadBandwidth else .runScan }, [])
  | .loadBandwidth =>
      ({ s with appliedBandwidthHz := s.commands.requestedBandwidthHz, pc := .runScan }, [])
  | .runScan =>
      ({ s with
          pc := if s.scanEngine.active && s.session.rtlConnected then .sweep else .read }, [])
  | .sweep =>
      match env.center with
      | none => ({ s with pc := .fallback }, [])
      | some centerHz =>
          if !env.running then ({ s with scanEngine.active := false, pc := .fallback }, [])
          else
            -- `consumeScanCancel()`
            let cancel := s.server.scanCancelPending
            ({ s with
                server.scanCancelPending := false
                scanEngine.active := s.scanEngine.active && !cancel
                pc := if cancel then .fallback else .sweepTune centerHz }, [])
  | .sweepTune centerHz =>
      -- a failed retune aborts the sweep
      ({ s with
          tunedHz := if env.tuneOk then centerHz else s.tunedHz
          scanEngine.active := s.scanEngine.active && env.tuneOk
          pc := if env.tuneOk then .sweep else .fallback }, [.setFrequency centerHz])
  | .fallback =>
      -- here a failed retune skips its channels
      match env.center with
      | none => ({ s with pc := .finishScan }, [])
      | some centerHz =>
          ({ s with tunedHz := if env.tuneOk then centerHz else s.tunedHz },
            [.setFrequency centerHz])
  | .finishScan =>
      -- a continuous scan stays active and sweeps again in the next round
      if !s.scanEngine.config.continuous || !s.scanEngine.active then
        ({ s with
            scanEngine.active := false
            pc := .restoreBandwidth s.scanEngine.restoreFreqHz s.scanEngine.restoreBandwidthHz
              .runIfActive }, [])
      else ({ s with pc := .pollStop }, [])
  | .read =>
      if env.readOk then
        ({ s with
            session := s.session.resetReadFailures
            pc := match env.adaptive with
              | none => .pollStop
              | some change => if change ≤ 0 then .pollStop else .adaptBandwidth change }, [])
      else
        let noted := s.session.noteReadFailureAndMaybeReconnect cfg.session env.answers
          s.commands.requestedFrequencyHz
        ({ s with
            session := noted.1
            tunedHz := s.tunedAfter env.answers noted.2
            pc := .pollStop }, noted.2)
  | .adaptBandwidth bandwidthHz =>
      ({ s with
          commands.requestedBandwidthHz := bandwidthHz
          pc := .adaptBandwidthPending }, [])
  | .adaptBandwidthPending =>
      ({ s with commands.pendingBandwidth := true, pc := .pollStop }, [])

/-! ### Steps of the clients -/

/-- Perform one write. -/
def write (s : Application) : Write → Application
  | .server w => { s with server := s.server.store w }
  | .command w => { s with commands := s.commands.store w }
  | .startRequest => { s with pendingStartRequest := true }
  | .stopRequest => { s with pendingStopRequest := true }

/-- The first write of the command in progress. -/
def clientStep (s : Application) : Application :=
  match s.clientWrites with
  | [] => s
  | w :: ws => { s with clientWrites := ws }.write w

/-- The first write of the REST request in progress. -/
def restStep (s : Application) : Application :=
  match s.restWrites with
  | [] => s
  | w :: ws => { s with restWrites := ws }.write w

end Application

inductive AppAction where
  | main (env : Env)
  /-- An authenticated XDR client sends a line. -/
  | xdrLine (cmd : Text) (guestSession : Bool)
  /-- An FM-DX client that has started the tuner sends a line. -/
  | fmdxLine (cmd : Text)
  | clientWrite
  /-- An FM-DX client sends `x`. -/
  | fmdxStart
  /-- An FM-DX client sends `X`, or disconnects without having stopped. -/
  | fmdxStop
  | xdrDisconnect
  | rest (controls : Controls) (params : List (Text × Text))
  | restWrite
  | rdsGroup (group : RdsGroup) (nowMs : Nat)

namespace Application

/-- The effects of the command line that a client starts to execute: none
    while another command holds the mutex. -/
def startedEffects (cfg : AppConfig) (s : Application) : AppAction → List Effect
  | .xdrLine cmd guestSession =>
      if s.clientWrites.isEmpty then
        (processCommand s.server (facadeHooks cfg.facade) cmd true guestSession).effects
      else []
  | .fmdxLine cmd =>
      if s.clientWrites.isEmpty then
        (processFmdxCommand s.server (facadeHooks cfg.facade) cmd).effects
      else []
  | _ => []

def step (cfg : AppConfig) (s : Application) (a : AppAction) : Application × List TunerCall :=
  match a with
  | .main env => s.mainStep cfg env
  | .xdrLine [] _ => (s.write (.server .scanCancelPending), [])
  | .xdrLine (_ :: _) _ | .fmdxLine _ =>
      if s.clientWrites.isEmpty then
        ({ s with
            clientWrites := (s.startedEffects cfg a).flatMap (effectWrites cfg.facade) }, [])
      else (s, [])
  | .clientWrite => (s.clientStep, [])
  | .fmdxStart => (s.write .startRequest, [])
  | .fmdxStop => (s.write .stopRequest, [])
  | .xdrDisconnect => (s.write (.server .scanCancelPending), [])
  | .rest controls params =>
      if s.restWrites.isEmpty then
        ({ s with restWrites := (applyParams controls params).calls.flatMap controlWrites }, [])
      else (s, [])
  | .restWrite => (s.restStep, [])
  | .rdsGroup group nowMs => ({ s with server := s.server.updateRDS group nowMs }, [])

end Application

/-! ### What clients can do -/

/-- The write of a request made outside the mutex. -/
def AppAction.directWrite : AppAction → Option Write
  | .xdrLine [] _ | .xdrDisconnect => some (.server .scanCancelPending)
  | .fmdxStart => some .startRequest
  | .fmdxStop => some .stopRequest
  | _ => none

namespace Application

/-- The write that a step of a client performs, if any. -/
def performed (s : Application) : AppAction → Option Write
  | .clientWrite => s.clientWrites.head?
  | .restWrite => s.restWrites.head?
  | a => a.directWrite

/-- A step of anyone but the main loop: a write, the beginning of a command
    or of a request, a group of RDS data, or nothing. -/
inductive ClientStep (cfg : AppConfig) (s : Application) (a : AppAction) : Application → Prop
  | direct (w : Write) (hd : a.directWrite = some w) (hw : s.performed a = some w) :
      ClientStep cfg s a (s.write w)
  | client (w : Write) (ws : List Write) (hws : s.clientWrites = w :: ws)
      (hw : s.performed a = some w) :
      ClientStep cfg s a ({ s with clientWrites := ws }.write w)
  | rest (w : Write) (ws : List Write) (hws : s.restWrites = w :: ws)
      (hw : s.performed a = some w) :
      ClientStep cfg s a ({ s with restWrites := ws }.write w)
  | line (hfree : s.clientWrites = []) (hw : s.performed a = none) :
      ClientStep cfg s a
        { s with clientWrites := (s.startedEffects cfg a).flatMap (effectWrites cfg.facade) }
  | request (controls : Controls) (params : List (Text × Text))
      (ha : a = .rest controls params) (hfree : s.restWrites = []) (hw : s.performed a = none) :
      ClientStep cfg s a
        { s with restWrites := (applyParams controls params).calls.flatMap controlWrites }
  | group (group : RdsGroup) (nowMs : Nat) (ha : a = .rdsGroup group nowMs)
      (hw : s.performed a = none) :
      ClientStep cfg s a { s with server := s.server.updateRDS group nowMs }
  | idle (ha : ∀ group nowMs, a ≠ .rdsGroup group nowMs) (hw : s.performed a = none) :
      ClientStep cfg s a s

theorem step_client (cfg : AppConfig) (s : Application) {a : AppAction}
    (h : ∀ env, a ≠ .main env) : ClientStep cfg s a (s.step cfg a).1 := by
  cases a with
  | main env => exact absurd rfl (h env)
  | xdrLine cmd guestSession =>
    cases cmd with
    | nil => exact .direct (.server .scanCancelPending) rfl rfl
    | cons c cmd =>
      simp only [step]
      split
      · next hfree => exact .line (List.isEmpty_iff.mp hfree) rfl
      · exact .idle (fun _ _ he => by cases he) rfl
  | fmdxLine cmd =>
    simp only [step]
    split
    · next hfree => exact .line (List.isEmpty_iff.mp hfree) rfl
    · exact .idle (fun _ _ he => by cases he) rfl
  | clientWrite =>
    simp only [step, clientStep]
    split
    · next hws => exact .idle (fun _ _ he => by cases he) (by rw [performed, hws]; rfl)
    · next w ws hws => exact .client w ws hws (by rw [performed, hws]; rfl)
  | fmdxStart => exact .direct .startRequest rfl rfl
  | fmdxStop => exact .direct .stopRequest rfl rfl
  | xdrDisconnect => exact .direct (.server .scanCancelPending) rfl rfl
  | rest controls params =>
    simp only [step]
    split
    · next hfree => exact .request controls params rfl (List.isEmpty_iff.mp hfree) rfl
    · exact .idle (fun _ _ he => by cases he) rfl
  | restWrite =>
    simp only [step, restStep]
    split
    · next hws => exact .idle (fun _ _ he => by cases he) (by rw [performed, hws]; rfl)
    · next w ws hws => exact .rest w ws hws (by rw [performed, hws]; rfl)
  | rdsGroup group nowMs => exact .group group nowMs rfl rfl

/-- Requests made outside the mutex leave the command state alone. -/
theorem directWrite_command {a : AppAction} {st : CommandStore} :
    a.directWrite ≠ some (.command st) := by
  intro h
  cases a with
  | xdrLine cmd guestSession => cases cmd <;> cases h
  | _ => cases h

/-- Clients reach the command state by their stores. -/
theorem step_commands (cfg : AppConfig) (s : Application) {a : AppAction}
    (h : ∀ env, a ≠ .main env) :
    (s.step cfg a).1.commands = match s.performed a with
      | some (.command st) => s.commands.store st
      | _ => s.commands := by
  have hclient := s.step_client cfg h
  generalize (s.step cfg a).1 = s' at hclient
  cases hclient with
  | direct w hd hw | client w ws hws hw | rest w ws hws hw => rw [hw]; cases w <;> rfl
  | line hfree hw | request controls params ha hfree hw | group group nowMs ha hw | idle ha hw =>
    rw [hw]

/-- The tuner is left to the main loop. -/
theorem step_calls (cfg : AppConfig) (s : Application) {a : AppAction}
    (h : ∀ env, a ≠ .main env) : (s.step cfg a).2 = [] := by
  cases a with
  | main env => exact absurd rfl (h env)
  | xdrLine cmd guestSession =>
    cases cmd with
    | nil => rfl
    | cons c cmd =>
      simp only [step]
      split <;> rfl
  | fmdxLine cmd =>
    simp only [step]
    split <;> rfl
  | rest controls params =>
    simp only [step]
    split <;> rfl
  | _ => rfl

/-- The variables that only the main loop writes are the same. -/
structure SameOwn (s s' : Application) : Prop where
  pc : s'.pc = s.pc
  tunerActive : s'.tunerActive = s.tunerActive
  session : s'.session = s.session
  scanEngine : s'.scanEngine = s.scanEngine
  tunedHz : s'.tunedHz = s.tunedHz
  appliedBandwidthHz : s'.appliedBandwidthHz = s.appliedBandwidthHz

theorem SameOwn.rfl {s : Application} {server : XDRServer} {clientWrites restWrites : List Write} :
    SameOwn s { s with
      server := server, clientWrites := clientWrites, restWrites := restWrites } :=
  ⟨Eq.refl _, Eq.refl _, Eq.refl _, Eq.refl _, Eq.refl _, Eq.refl _⟩

theorem write_own (s : Application) (w : Write) : SameOwn s (s.write w) := by
  cases w <;> exact ⟨rfl, rfl, rfl, rfl, rfl, rfl⟩

theorem write_writes (s : Application) (w : Write) :
    (s.write w).clientWrites = s.clientWrites ∧ (s.write w).restWrites = s.restWrites := by
  cases w <;> exact ⟨rfl, rfl⟩

/-- A step of anyone but the main loop. -/
theorem step_own (cfg : AppConfig) (s : Application) {a : AppAction}
    (h : ∀ env, a ≠ .main env) : SameOwn s (s.step cfg a).1 := by
  have hclient := s.step_client cfg h
  generalize (s.step cfg a).1 = s' at hclient
  cases hclient with
  | direct w => exact s.write_own w
  | client w ws =>
    have hown := write_own { s with clientWrites := ws } w
    exact ⟨hown.pc, hown.tunerActive, hown.session, hown.scanEngine, hown.tunedHz,
      hown.appliedBandwidthHz⟩
  | rest w ws =>
    have hown := write_own { s with restWrites := ws } w
    exact ⟨hown.pc, hown.tunerActive, hown.session, hown.scanEngine, hown.tunedHz,
      hown.appliedBandwidthHz⟩
  | _ => exact ⟨rfl, rfl, rfl, rfl, rfl, rfl⟩

end Application

/-! ### What the main loop writes -/

/-- Of the main loop only a restore requests a frequency. -/
theorem Application.mainStep_requestedFrequency (cfg : AppConfig) (env : Env)
    (s : Application) :
    (s.mainStep cfg env).1.commands.requestedFrequencyHz = s.commands.requestedFrequencyHz ∨
      ∃ caller, s.pc = .restoreFrequency
        (s.mainStep cfg env).1.commands.requestedFrequencyHz caller := by
  cases hpc : s.pc with
  | restoreFrequency freqHz caller =>
    refine Or.inr ⟨caller, ?_⟩
    simp only [Application.mainStep, hpc]
  | scanConfig currentFreqHz fields config =>
    cases fields <;> exact Or.inl (by simp only [Application.mainStep, hpc])
  | _ =>
    refine Or.inl ?_
    simp only [Application.mainStep, hpc]
    try ((repeat' split) <;> rfl)

/-- The main loop does not touch what clients have still to write. -/
theorem Application.mainStep_writes (cfg : AppConfig) (s : Application) (env : Env) :
    (s.mainStep cfg env).1.clientWrites = s.clientWrites ∧
      (s.mainStep cfg env).1.restWrites = s.restWrites := by
  unfold Application.mainStep
  split
  all_goals first
    | exact ⟨rfl, rfl⟩
    | (repeat' split) <;> exact ⟨rfl, rfl⟩

/-! ### The body of the loop -/

/-- Is the main loop past its two polls? -/
def Pc.inBody : Pc → Bool
  | .pollStop | .clearStart | .stopTuner | .pollStart | .startTuner => false
  | _ => true

/-- The body touches neither the requests nor `tunerActive`, and when it is
    left the loop starts over. -/
theorem Application.mainStep_body (cfg : AppConfig) (env : Env) {s : Application}
    (h : s.pc.inBody = true) :
    ((s.mainStep cfg env).1.pc.inBody = true ∨ (s.mainStep cfg env).1.pc = .pollStop) ∧
      (s.mainStep cfg env).1.tunerActive = s.tunerActive ∧
      (s.mainStep cfg env).1.pendingStartRequest = s.pendingStartRequest ∧
      (s.mainStep cfg env).1.pendingStopRequest = s.pendingStopRequest := by
  cases hpc : s.pc with
  | pollStop | clearStart | stopTuner | pollStart | startTuner => rw [hpc] at h; cases h
  | scanConfig currentFreqHz fields config =>
    cases fields <;> simp only [Application.mainStep, hpc]
    · split <;> simp [Pc.inBody]
    · simp [Pc.inBody]
  | restoreTune freqHz caller =>
    simp only [Application.mainStep, hpc]
    split <;> cases caller <;> simp [RestoreCaller.resume, Pc.inBody]
  | sweep =>
    simp only [Application.mainStep, hpc]
    split
    · simp [Pc.inBody]
    · split
      · simp [Pc.inBody]
      · split <;> simp [Pc.inBody]
  | fallback =>
    simp only [Application.mainStep, hpc]
    split <;> simp [Pc.inBody]
  | _ =>
    simp only [Application.mainStep, hpc]
    first
      | (simp [Pc.inBody]; done)
      | (repeat' split) <;> simp [Pc.inBody]

/-! ### Scans -/

/-- Is the main loop in the sweep of a scan, up to its end? -/
def Pc.inSweep : Pc → Bool
  | .sweep | .sweepTune _ | .fallback | .finishScan => true
  | _ => false

/-- A scan has started and its restore has not begun. A sweep that was
    cancelled runs on to its end with the engine inactive. -/
def Application.scanning (s : Application) : Bool := s.scanEngine.active || s.pc.inSweep

theorem Application.SameOwn.scanning {s s' : Application} (h : SameOwn s s') :
    s'.scanning = s.scanning := by
  rw [Application.scanning, h.scanEngine, h.pc]
  rfl

/-- What a running scan will restore is captured where it starts. -/
theorem Application.mainStep_scanning (cfg : AppConfig) (env : Env) {s : Application}
    (h : (s.mainStep cfg env).1.scanning = true) :
    (s.scanning = true ∧
      (s.mainStep cfg env).1.scanEngine.restoreFreqHz = s.scanEngine.restoreFreqHz ∧
      (s.mainStep cfg env).1.scanEngine.restoreBandwidthHz = s.scanEngine.restoreBandwidthHz) ∨
    ∃ currentFreqHz config, s.pc = .scanConfig currentFreqHz [] config ∧
      (s.mainStep cfg env).1.scanEngine =
        ⟨true, config, currentFreqHz, s.appliedBandwidthHz⟩ := by
  cases hpc : s.pc with
  | scanConfig currentFreqHz fields config =>
    cases fields with
    | nil => exact Or.inr ⟨currentFreqHz, config, rfl, by simp only [Application.mainStep, hpc]⟩
    | cons field fields =>
      simp only [Application.mainStep, hpc, Application.scanning, Pc.inSweep, Bool.or_false]
        at h ⊢
      exact Or.inl ⟨h, trivial, trivial⟩
  | sweep | sweepTune centerHz | fallback | finishScan =>
    refine Or.inl ⟨by simp [Application.scanning, hpc, Pc.inSweep], ?_, ?_⟩ <;>
      simp only [Application.mainStep, hpc] <;> (repeat' split) <;> rfl
  | restoreTune freqHz caller =>
    -- whoever called for the restore goes on outside a sweep
    have hengine : (s.mainStep cfg env).1.scanEngine = s.scanEngine := by
      simp only [Application.mainStep, hpc]
      split <;> rfl
    have hsweep : (s.mainStep cfg env).1.pc.inSweep = false := by
      simp only [Application.mainStep, hpc]
      split <;> cases caller <;> rfl
    rw [Application.scanning, hengine, hsweep, Bool.or_false] at h
    rw [hengine]
    exact Or.inl ⟨by rw [Application.scanning, h, Bool.true_or], rfl, rfl⟩
  | _ =>
    refine Or.inl ⟨?_, ?_, ?_⟩
    · -- elsewhere the engine is not activated, and a sweep is entered active
      revert h
      simp only [Application.mainStep, hpc, Application.scanning]
      first
        | (simp +contextual [Pc.inSweep]; done)
        | (repeat' split) <;> simp_all [Pc.inSweep]
    all_goals
      simp only [Application.mainStep, hpc]
      try ((repeat' split) <;> rfl)

/-- A place to start from: no scan, no write in progress, at the top of the
    main loop. -/
structure Application.Quiet (s : Application) : Prop where
  pc_eq : s.pc = .pollStop
  inactive : s.scanEngine.active = false
  clientWrites_eq : s.clientWrites = []
  restWrites_eq : s.restWrites = []

theorem Application.initial_quiet (commands : XdrCommandState) :
    (Application.initial commands).Quiet := ⟨rfl, rfl, rfl, rfl⟩

/-- The application as a machine. -/
def appMachine (cfg : AppConfig) : Machine Application AppAction :=
  ⟨fun s a => (s.step cfg a).1⟩

end FmSdrTuner
