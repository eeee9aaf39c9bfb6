import FmSdrTuner.Control.MainLoop
import FmSdrTuner.Control.RestPanel

/-! # The application with its tuner

    The main loop of `Application::run` together with what it leaves out
    by itself: the calls of the device, the gain that is written to it, the
    automatic gain, and the REST panel. REST controls reach the tuner from
    their own thread; the main loop writes the gain when it connects, after
    a retune, every five minutes, and when a client asks for a gain. -/

namespace FmSdrTuner

/-! ### Gain -/

namespace TunerConfig
variable (cfg : TunerConfig)

/-- `isImsAgcEnabled`. -/
def isImsAgcEnabled (c : XdrCommandState) : Bool :=
  if 0 ≤ cfg.gain then false else c.requestedCustomGain.tmod 10 != 0

/-- `agcModeToGainDb`. -/
def agcModeToGainDb (mode : Int) : Int :=
  let clippedMode := (clamp mode 0 3).toNat
  if cfg.kind = .rtlSdr ∧ cfg.useSdrppGainStrategy = false then
    [18, 12, 7, 0].getD clippedMode 0
  else [44, 36, 30, 24].getD clippedMode 0

/-- `calculateAppliedGainDb`. -/
def calculateAppliedGainDb (c : XdrCommandState) : Int :=
  let agcMode := clamp c.requestedAGCMode 0 3
  let ceq := (c.requestedCustomGain.tdiv 10).tmod 10 != 0
  let gainDb := cfg.agcModeToGainDb agcMode + if ceq then 4 else 0
  clamp (if 0 ≤ cfg.gain then cfg.gain else gainDb) 0 49

/-- The calls of `applyRtlGainAndAgc` while connected. -/
def gainCalls (c : XdrCommandState) : List DeviceCall :=
  if cfg.kind = .sdrPlay ∧ cfg.sdrplayAgc = true then [.setGainMode false, .setAGC true]
  else if cfg.useSdrppGainStrategy then
    [.setGainMode true,
      .setGain (if 0 ≤ cfg.gain then toUInt32 (clamp cfg.gain 0 49 * 10)
        else toUInt32 (cfg.sdrppRtlAgcGainDb * 10)),
      .setAGC cfg.sdrppRtlAgc]
  else if cfg.isImsAgcEnabled c then [.setGainMode false, .setAGC true]
  else
    [.setGainMode true, .setAGC false, .setGain (toUInt32 (cfg.calculateAppliedGainDb c * 10))]

end TunerConfig

/-- `AutoGainStep`. -/
inductive AutoGainStep where
  | none
  | down
  | up
  deriving DecidableEq, Repr

/-- What the environment decides about the gain in a step of the main loop:
    whether a reassertion is due, and what one block of samples says. -/
structure Servo where
  /-- Five minutes have passed, and the wide mode of scans is off. -/
  reassert : Bool
  overload : Bool
  hasHeadroom : Bool
  downTimerElapsed : Bool
  upTimerElapsed : Bool
  deriving DecidableEq, Repr

/-- `decideAutoGainStep`. -/
def decideAutoGainStep (currentMode : Int) (servo : Servo) : AutoGainStep :=
  if servo.overload && servo.downTimerElapsed && decide (currentMode < 3) then .down
  else if servo.hasHeadroom && servo.upTimerElapsed && decide (0 < currentMode) then .up
  else .none

/-- `maybeAdjustAutoGain`. Its two stores are one step here. -/
def maybeAdjustAutoGain (cfg : TunerConfig) (servo : Servo) (c : XdrCommandState) :
    XdrCommandState :=
  if cfg.useSdrppGainStrategy || decide (0 ≤ cfg.gain) || cfg.isImsAgcEnabled c then c
  else
    let current := clamp c.requestedAGCMode 0 3
    match decideAutoGainStep current servo with
    | .down => { c with requestedAGCMode := current + 1, pendingAGC := true }
    | .up => { c with requestedAGCMode := current - 1, pendingAGC := true }
    | .none => c

/-! ### State -/

structure Station (δ : Type) where
  app : Application
  panel : RestPanelState δ
  tuner : TunerController
  /-- `gainChanged || agcChanged` in `handleControlAndScan`. -/
  gainChanged : Bool
  deriving DecidableEq

/-- What is fixed at start-up. -/
structure StationConfig where
  tuner : TunerConfig
  autoReconnect : Bool
  allowClientGainOverride : Bool
  defaultBlendMode : Int
  deriving DecidableEq

def StationConfig.app (cfg : StationConfig) : AppConfig where
  facade := ⟨cfg.tuner.useSdrppGainStrategy, cfg.allowClientGainOverride, 0 ≤ cfg.tuner.gain⟩
  session := ⟨cfg.tuner.freqCorrectionPpm, cfg.autoReconnect⟩

inductive StationAction where
  /-- A step of the main loop or of a client. The servo matters to the main
      loop only. -/
  | app (a : AppAction) (servo : Servo)
  /-- A REST control. -/
  | control (c : ControlCall)

/-! ### Steps -/

namespace Station
variable {δ : Type} (cfg : StationConfig) (num : GainNumbers δ) (outcomes : Outcomes)

/-- The station at start-up. -/
def initial (ofInt : Int → δ) (commands : XdrCommandState) : Station δ where
  app := Application.initial commands
  panel := cfg.tuner.panel ofInt
  tuner := cfg.tuner.controller
  gainChanged := false

/-- Does a step of the main loop, which makes these calls of the tuner,
    call `applyRtlGainAndAgc`? -/
def appliesGain (s : Station δ) (servo : Servo) (calls : List TunerCall) : Bool :=
  match s.app.pc with
  -- "connect/apply"
  | .startTuner | .read => calls.contains .connect
  -- "periodic/reassert"
  | .control => servo.reassert && !s.app.scanEngine.active
  -- "retune/reassert", behind `setFrequencyState`
  | .compareFrequency freqHz => freqHz == 0
  | .storeFrequency _ => true
  -- "runtime/update"
  | .pollBandwidth => s.gainChanged
  | _ => false

/-- A step of the main loop. -/
def mainStep (s : Station δ) (env : Env) (servo : Servo) : Station δ :=
  let next := s.app.mainStep cfg.app env
  let tuner := s.tuner.log (next.2.flatMap (s.tuner.deviceCalls env.answers))
  { s with
    app := { next.1 with
      commands := if s.app.pc = .read ∧ env.readOk = true then
          maybeAdjustAutoGain cfg.tuner servo next.1.commands
        else next.1.commands }
    tuner := if s.appliesGain servo next.2 && next.1.session.rtlConnected then
        tuner.log (cfg.tuner.gainCalls s.app.commands)
      else tuner
    gainChanged := match s.app.pc with
      | .pollGain => s.app.commands.pendingGain
      | .pollAgc => s.gainChanged || s.app.commands.pendingAGC
      | .pollBandwidth => false
      | _ => s.gainChanged }

/-- A control of REST. -/
def controlStep (s : Station δ) (c : ControlCall) : Station δ :=
  let set := (RestBackend.mk s.panel s.app.commands s.tuner cfg.defaultBlendMode).control
    num outcomes c
  { s with
    app := { s.app with commands := set.1.commands }
    panel := set.1.panel
    tuner := set.1.tuner }

def step (s : Station δ) : StationAction → Station δ
  | .app (.main env) servo => s.mainStep cfg env servo
  | .app a _ => { s with app := (s.app.step cfg.app a).1 }
  | .control c => s.controlStep cfg num outcomes c

end Station

/-- The application with its tuner as a machine. -/
def stationMachine {δ : Type} (cfg : StationConfig) (num : GainNumbers δ) (outcomes : Outcomes) :
    Machine (Station δ) StationAction := ⟨Station.step cfg num outcomes⟩

/-! ### Connections and gain requests of the main loop -/

namespace Application
variable {cfg : AppConfig} {env : Env} {s : Application}

/-- The main loop connects in two places. -/
theorem mainStep_connect_pc (hmem : .connect ∈ (s.mainStep cfg env).2) :
    s.pc = .startTuner ∨ s.pc = .read := by
  cases hpc : s.pc with
  | startTuner => exact Or.inl rfl
  | read => exact Or.inr rfl
  | stopTuner =>
    simp only [mainStep, hpc, TunerSession.disconnect] at hmem
    split at hmem
    · cases hmem
    · cases List.mem_singleton.mp hmem
  | scanConfig currentFreqHz fields config =>
    cases fields <;> simp [mainStep, hpc] at hmem
  | _ =>
    simp only [mainStep, hpc] at hmem
    first
      | (simp at hmem; done)
      | (repeat' split at hmem) <;> simp at hmem

/-- Otherwise it is connected only if it was before. -/
theorem mainStep_connected (hmem : .connect ∉ (s.mainStep cfg env).2)
    (hconn : (s.mainStep cfg env).1.session.rtlConnected = true) :
    s.session.rtlConnected = true := by
  cases hpc : s.pc with
  | startTuner =>
    simp only [mainStep, hpc] at hmem hconn
    rcases s.session.connect_cases cfg.session env.answers s.commands.requestedFrequencyHz
      with ⟨hold, -⟩ | ⟨-, hcall, -⟩
    · exact hold
    · exact absurd hcall hmem
  | read =>
    simp only [mainStep, hpc] at hconn
    split at hconn
    · exact hconn
    · exact TunerSession.note_connected hconn
  | stopTuner =>
    simp only [mainStep, hpc, TunerSession.disconnect] at hconn
    split at hconn
    · exact hconn
    · cases hconn
  | scanConfig currentFreqHz fields config =>
    cases fields <;> simpa only [mainStep, hpc] using hconn
  | _ =>
    simp only [mainStep, hpc] at hconn
    first
      | exact hconn
      | (repeat' split at hconn) <;> exact hconn

variable (cfg env s) in
/-- The requests of clients are taken at one place each. -/
theorem mainStep_gainRequests :
    (s.mainStep cfg env).1.commands.pendingGain =
        (if s.pc = .pollGain then false else s.commands.pendingGain) ∧
      (s.mainStep cfg env).1.commands.pendingAGC =
        (if s.pc = .pollAgc then false else s.commands.pendingAGC) := by
  cases hpc : s.pc with
  | scanConfig currentFreqHz fields config =>
    cases fields <;> simp [mainStep, hpc]
  | _ =>
    simp only [mainStep, hpc, reduceCtorEq, if_true, if_false]
    first
      | exact ⟨trivial, trivial⟩
      | (repeat' split) <;> exact ⟨rfl, rfl⟩

end Application

end FmSdrTuner
