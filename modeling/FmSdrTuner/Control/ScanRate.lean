import FmSdrTuner.Control.ScanInvariant

/-! # The sample rate of a scan

    During a scan an SDRplay runs without its hardware decimation. The rate
    it delivers is kept in three places: in the device (`m_inputRate`), in
    the main loop (`scanWideActive` and `scanWideRate`), and in the hardware,
    which has the last word. `handleControlAndScan` switches on the edges of
    `isActive()`, whatever happens to the device in between.

    The source is an SDRplay throughout; for the others `setScanWideMode`
    answers 0 and the main loop keeps the rate it has.

    Main result: `scan_rate_delivered_iff`. -/

namespace FmSdrTuner

def INPUT_RATE : Nat := 256000

/-- The sample rate of the front end. -/
def kFsHz : Nat := 2048000

def kDecim : Nat := 8

/-! ### The device -/

structure SDRplayDevice where
  connected : Bool
  inputRate : Nat
  /-- In the parameter block that `Init` and `Update` read. -/
  decimationFactor : Nat
  /-- What the hardware runs with. -/
  hwDecimation : Nat
  deriving DecidableEq, Repr

/-- What the SDRplay API answers in one step of the main loop. -/
structure SdrplayAnswers where
  /-- A failing `connect` gets as far as `Init`. -/
  reachesInit : Bool
  okDecim : Bool
  okBw : Bool
  deriving DecidableEq, Repr

namespace SDRplayDevice

def initial : SDRplayDevice := ⟨false, 256000, kDecim, kDecim⟩

/-- The rate at which samples arrive. -/
def deliveredRate (d : SDRplayDevice) : Nat := kFsHz / d.hwDecimation

def connect (d : SDRplayDevice) (ok reachesInit : Bool) : SDRplayDevice :=
  if ok then ⟨true, kFsHz / kDecim, kDecim, kDecim⟩
  else if reachesInit then
    { d with inputRate := kFsHz / kDecim, decimationFactor := kDecim }
  else d

def disconnect (d : SDRplayDevice) : SDRplayDevice := { d with connected := false }

/-- `m_inputRate` follows the request, not the outcome of the updates. -/
def setScanWideMode (d : SDRplayDevice) (wide : Bool) (a : SdrplayAnswers) :
    Bool × SDRplayDevice :=
  if !d.connected then (false, d)
  else
    let factor := if wide then 1 else kDecim
    (a.okDecim && a.okBw,
      { d with
          decimationFactor := factor
          hwDecimation := if a.okDecim then factor else d.hwDecimation
          inputRate := if wide then kFsHz else kFsHz / kDecim })

/-- What a call of the tuner does to the device. -/
def call (answers : TunerAnswers) (a : SdrplayAnswers) (d : SDRplayDevice) :
    TunerCall → SDRplayDevice
  | .connect => d.connect answers.connectOk a.reachesInit
  | .disconnect => d.disconnect
  | .setFrequency _ | .setSampleRate | .setFrequencyCorrection _ => d

end SDRplayDevice

/-- `TunerController::setScanWideMode`. -/
def TunerController.setScanWideMode (d : SDRplayDevice) (wide : Bool) (a : SdrplayAnswers) :
    Nat × SDRplayDevice :=
  let set := d.setScanWideMode wide a
  (set.2.inputRate, set.2)

/-! ### The main loop -/

structure ScanRateState where
  app : Application
  device : SDRplayDevice
  scanWideActive : Bool
  scanWideRate : Nat
  deriving DecidableEq, Repr

namespace ScanRateState

/-- `Application::run` sets `iqSampleRate` to `INPUT_RATE` for an SDRplay. -/
def initial (commands : XdrCommandState) : ScanRateState where
  app := .initial commands
  device := .initial
  scanWideActive := false
  scanWideRate := INPUT_RATE

/-- The part of `handleControlAndScan` before `runIfActive`. -/
def selectScanRate (s : ScanRateState) (a : SdrplayAnswers) : ScanRateState :=
  let scanActive := s.app.scanEngine.active
  if scanActive && !s.scanWideActive then
    let wide := TunerController.setScanWideMode s.device true a
    { s with
        device := wide.2
        scanWideRate := if wide.1 ≠ 0 then wide.1 else INPUT_RATE
        scanWideActive := true }
  else if !scanActive && s.scanWideActive then
    { s with
        device := (TunerController.setScanWideMode s.device false a).2
        scanWideActive := false
        scanWideRate := INPUT_RATE }
  else s

def effectiveScanRate (s : ScanRateState) : Nat :=
  if s.scanWideActive then s.scanWideRate else INPUT_RATE

/-- The rate is selected right before `runIfActive`. -/
def beforeRun (s : ScanRateState) (a : SdrplayAnswers) : ScanRateState :=
  if s.app.pc = .runScan then s.selectScanRate a else s

def step (cfg : AppConfig) (s : ScanRateState) : AppAction × SdrplayAnswers → ScanRateState
  | (.main env, a) =>
      let next := s.app.mainStep cfg env
      { s.beforeRun a with
          app := next.1
          device := next.2.foldl (·.call env.answers a) (s.beforeRun a).device }
  | (action, _) => { s with app := (s.app.step cfg action).1 }

end ScanRateState

/-! ### The property, and when it holds -/

/-- The device has been connected since `scanWideRate` was last set by a
    switch to wide mode. -/
def observeFresh (cfg : AppConfig) (fresh : Bool) (s : ScanRateState) :
    AppAction × SdrplayAnswers → Bool
  | (.main env, _) =>
      if s.app.pc = .runScan then fresh && !(s.app.scanEngine.active && !s.scanWideActive)
      else fresh || ((s.app.mainStep cfg env).2.contains .connect && env.answers.connectOk)
  | _ => fresh

def scanRateRun (cfg : AppConfig) :
    Machine (ScanRateState × Bool) (AppAction × SdrplayAnswers) :=
  Machine.withHistory ⟨ScanRateState.step cfg⟩ (observeFresh cfg)

/-- The step calls `runIfActive` on a connected device. -/
def RunsConnected (s : ScanRateState) : AppAction → Prop
  | .main _ => s.app.pc = .runScan ∧ s.app.session.rtlConnected = true
  | _ => False

instance (s : ScanRateState) : ∀ a, Decidable (RunsConnected s a)
  | .main _ => inferInstanceAs (Decidable (_ ∧ _))
  | .xdrLine .. | .fmdxLine _ | .clientWrite | .fmdxStart | .fmdxStop | .xdrDisconnect
  | .rest .. | .restWrite | .rdsGroup .. => isFalse id

/-- The rate passed to `runIfActive` is the one the hardware delivers. -/
def RateDelivered (p : ScanRateState × Bool) (a : AppAction × SdrplayAnswers) : Prop :=
  RunsConnected p.1 a.1 →
    (p.1.selectScanRate a.2).effectiveScanRate =
      (p.1.selectScanRate a.2).device.deliveredRate

/-- A switch to wide mode succeeds; a switch back succeeds, or the device has
    been connected in between; a scan goes on at the wide rate only on the
    device that was switched. -/
def SwitchHolds (s : ScanRateState) (fresh : Bool) (a : SdrplayAnswers) : Prop :=
  match s.app.scanEngine.active, s.scanWideActive with
  | true, false => a.okDecim = true
  | false, true => a.okDecim = true ∨ fresh = true
  | true, true => fresh = true → s.scanWideRate = kFsHz / kDecim
  | false, false => True

def SwitchesHold (p : ScanRateState × Bool) (a : AppAction × SdrplayAnswers) : Prop :=
  RunsConnected p.1 a.1 → SwitchHolds p.1 p.2 a.2

/-! ### The device follows the session -/

/-- The device after some calls of the tuner, against the session. -/
structure Follows (answers : TunerAnswers) (a : SdrplayAnswers) (d : SDRplayDevice)
    (result : TunerSession × List TunerCall) : Prop where
  connected : (result.2.foldl (·.call answers a) d).connected = result.1.rtlConnected
  inputRate : (result.2.foldl (·.call answers a) d).inputRate = d.inputRate ∨
    (result.2.foldl (·.call answers a) d).inputRate = kFsHz / kDecim
  fresh : (result.2.contains .connect && answers.connectOk) = true →
    (result.2.foldl (·.call answers a) d).hwDecimation = kDecim
  kept : (result.2.contains .connect && answers.connectOk) = false →
    (result.2.foldl (·.call answers a) d).hwDecimation = d.hwDecimation ∧
      (result.1.rtlConnected = true → d.connected = true)

section session
variable {params : SessionParams} {answers : TunerAnswers} {requestedFrequencyHz : Nat}
  {a : SdrplayAnswers} {d : SDRplayDevice} {s : TunerSession}

theorem follows_connect (h : d.connected = s.rtlConnected) :
    Follows answers a d (s.connect params answers requestedFrequencyHz) := by
  unfold TunerSession.connect
  cases hon : s.rtlConnected with
  | true => exact ⟨h, Or.inl rfl, by simp, fun _ => ⟨rfl, fun _ => h.trans hon⟩⟩
  | false =>
    rw [hon] at h
    cases hok : answers.connectOk with
    | false =>
      cases hinit : a.reachesInit <;>
        exact ⟨by simp [SDRplayDevice.call, SDRplayDevice.connect, hok, hinit, h, hon],
          by simp [SDRplayDevice.call, SDRplayDevice.connect, hok, hinit],
          by simp [hok], fun _ => by
            simp [SDRplayDevice.call, SDRplayDevice.connect, hok, hinit, hon]⟩
    | true =>
      -- whatever follows, the hardware is set up afresh
      by_cases hppm : params.freqCorrectionPpm = 0 <;>
        cases hfreq : answers.okFreq <;> cases hrate : answers.okRate <;>
        refine ⟨?_, ?_, ?_, ?_⟩ <;>
        simp [SDRplayDevice.call, SDRplayDevice.connect, SDRplayDevice.disconnect, hok, hppm, hon]

/-- Disconnecting leaves the hardware as it is. -/
theorem follows_disconnect (h : d.connected = s.rtlConnected) :
    s.disconnect.2.foldl (·.call answers a) d = { d with connected := false } ∧
      s.disconnect.1.rtlConnected = false := by
  unfold TunerSession.disconnect
  cases hon : s.rtlConnected with
  | true => exact ⟨rfl, rfl⟩
  | false => exact ⟨by rw [hon] at h; simp [← h], hon⟩

theorem follows_reconnect (h : d.connected = s.rtlConnected) :
    Follows answers a d (s.reconnect params answers requestedFrequencyHz) := by
  obtain ⟨hdevice, hsession⟩ :
      s.disconnect.2.foldl (·.call answers a) d = { d with connected := false } ∧
        s.disconnect.1.rtlConnected = false := follows_disconnect h
  have hconnect : Follows answers a { d with connected := false }
      (s.disconnect.1.connect params answers requestedFrequencyHz) :=
    follows_connect hsession.symm
  have hcalls : (s.reconnect params answers requestedFrequencyHz).2 = s.disconnect.2 ++
      (s.disconnect.1.connect params answers requestedFrequencyHz).2 := rfl
  have hcontains : (s.reconnect params answers requestedFrequencyHz).2.contains .connect =
      (s.disconnect.1.connect params answers requestedFrequencyHz).2.contains .connect := by
    rw [hcalls]
    unfold TunerSession.disconnect
    cases s.rtlConnected <;> simp
  refine ⟨?_, ?_, ?_, ?_⟩
  · rw [hcalls, List.foldl_append, hdevice]
    exact hconnect.connected
  · rw [hcalls, List.foldl_append, hdevice]
    exact hconnect.inputRate
  · rw [hcontains, hcalls, List.foldl_append, hdevice]
    exact hconnect.fresh
  · rw [hcontains, hcalls, List.foldl_append, hdevice]
    intro hnot
    obtain ⟨hkept, hstill⟩ := hconnect.kept hnot
    exact ⟨hkept, fun hon => absurd (hstill hon) Bool.false_ne_true⟩

theorem follows_note (h : d.connected = s.rtlConnected) :
    Follows answers a d
      (s.noteReadFailureAndMaybeReconnect params answers requestedFrequencyHz) := by
  unfold TunerSession.noteReadFailureAndMaybeReconnect
  dsimp only
  split
  · exact follows_reconnect h
  · split
    · exact follows_reconnect h
    · exact ⟨h, Or.inl rfl, by simp, fun _ => ⟨rfl, fun hon => h.trans hon⟩⟩

/-- Tuning, or nothing at all. -/
theorem follows_idle (h : d.connected = s.rtlConnected) {calls : List TunerCall}
    (hcalls : ∀ call ∈ calls, ∃ freqHz, call = .setFrequency freqHz) :
    Follows answers a d (s, calls) := by
  have hsame : calls.foldl (·.call answers a) d = d := by
    induction calls with
    | nil => rfl
    | cons call calls ih =>
      obtain ⟨freqHz, rfl⟩ := hcalls call List.mem_cons_self
      exact ih fun other hother => hcalls other (List.mem_cons_of_mem _ hother)
  have hnone : calls.contains .connect = false := by
    rw [← Bool.not_eq_true, List.contains_iff_mem]
    intro hmem
    obtain ⟨freqHz, heq⟩ := hcalls _ hmem
    cases heq
  refine ⟨?_, ?_, ?_, ?_⟩
  · rw [hsame]; exact h
  · rw [hsame]; exact Or.inl rfl
  · rw [hnone]; simp
  · rw [hsame]; exact fun _ => ⟨rfl, fun hon => h.trans hon⟩

end session

/-- One step of the main loop. -/
theorem follows_mainStep (cfg : AppConfig) (env : Env) (a : SdrplayAnswers)
    {s : Application} {d : SDRplayDevice} (h : d.connected = s.session.rtlConnected) :
    Follows env.answers a d ((s.mainStep cfg env).1.session, (s.mainStep cfg env).2) := by
  cases hpc : s.pc with
  | startTuner =>
    simp only [Application.mainStep, hpc]
    exact follows_connect h
  | stopTuner =>
    simp only [Application.mainStep, hpc]
    obtain ⟨hdevice, hsession⟩ :
        s.session.disconnect.2.foldl (·.call env.answers a) d = { d with connected := false } ∧
          s.session.disconnect.1.rtlConnected = false := follows_disconnect h
    have hnone : s.session.disconnect.2.contains .connect = false := by
      unfold TunerSession.disconnect
      cases s.session.rtlConnected <;> rfl
    refine ⟨?_, ?_, ?_, ?_⟩
    · rw [hdevice]; exact hsession.symm
    · rw [hdevice]; exact Or.inl rfl
    · rw [hnone]; simp
    · rw [hdevice]
      exact fun _ => ⟨rfl, fun hon => absurd (hsession.symm.trans hon) Bool.false_ne_true⟩
  | read =>
    simp only [Application.mainStep, hpc]
    split
    · exact follows_idle (s := s.session.resetReadFailures) h (by simp)
    · exact follows_note h
  | restoreTune freqHz caller | pollFrequency | finishScan =>
    simp only [Application.mainStep, hpc]
    split <;> exact follows_idle h (by simp)
  | sweep =>
    simp only [Application.mainStep, hpc]
    (repeat' split) <;> exact follows_idle h (by simp)
  | fallback =>
    simp only [Application.mainStep, hpc]
    split <;> exact follows_idle h (by simp)
  | scanConfig currentFreqHz fields config =>
    cases fields <;>
      (simp only [Application.mainStep, hpc]; exact follows_idle h (by simp))
  | _ =>
    simp only [Application.mainStep, hpc]
    exact follows_idle h (by simp)

/-! ### The invariant -/

structure RatesTracked (p : ScanRateState × Bool) : Prop where
  connected : p.1.device.connected = p.1.app.session.rtlConnected
  inputRate : p.1.device.inputRate = kFsHz ∨ p.1.device.inputRate = kFsHz / kDecim
  narrow : p.1.scanWideActive = false → p.1.device.connected = true →
    p.1.device.hwDecimation = kDecim
  fresh : p.2 = true → p.1.device.connected = true → p.1.device.hwDecimation = kDecim
  wide : p.1.scanWideActive = true → p.2 = false → p.1.device.connected = true →
    p.1.device.hwDecimation = 1 ∧ p.1.scanWideRate = kFsHz

theorem ratesTracked_initial (commands : XdrCommandState) :
    RatesTracked (.initial commands, false) where
  connected := rfl
  inputRate := Or.inr rfl
  narrow _ h := by cases h
  fresh h := by cases h
  wide h := by cases h

section steps
variable {cfg : AppConfig} {s : ScanRateState} {fresh : Bool}

theorem setScanWideMode_connected {d : SDRplayDevice} (h : d.connected = true) (wide : Bool)
    (a : SdrplayAnswers) :
    (d.setScanWideMode wide a).2.connected = true ∧
    (d.setScanWideMode wide a).2.inputRate = (if wide then kFsHz else kFsHz / kDecim) ∧
    (d.setScanWideMode wide a).2.hwDecimation =
      (if a.okDecim then (if wide then 1 else kDecim) else d.hwDecimation) := by
  simp [SDRplayDevice.setScanWideMode, h]

/-- Where the rate is selected, the property and the condition say the same. -/
theorem rateDelivered_iff (h : RatesTracked (s, fresh)) (a : AppAction × SdrplayAnswers) :
    RateDelivered (s, fresh) a ↔ SwitchesHold (s, fresh) a := by
  unfold RateDelivered SwitchesHold SwitchHolds
  apply imp_congr_right
  intro hruns
  have hdevice : s.device.connected = true := by
    obtain ⟨action, hw⟩ := a
    cases action with
    | main env => exact h.connected.trans hruns.2
    | _ => cases hruns
  cases hscan : s.app.scanEngine.active with
  | true =>
    cases hwide : s.scanWideActive with
    | false =>
      -- a scan begins: the hardware is narrow until the switch succeeds
      have hnarrow : s.device.hwDecimation = kDecim := h.narrow hwide hdevice
      obtain ⟨-, hrate, hdecim⟩ := setScanWideMode_connected hdevice true a.2
      cases hok : a.2.okDecim <;>
        simp [ScanRateState.selectScanRate, hscan, hwide, ScanRateState.effectiveScanRate,
          TunerController.setScanWideMode, SDRplayDevice.deliveredRate, hrate, hdecim, hok,
          hnarrow, kFsHz, kDecim]
    | true =>
      cases hfresh : fresh with
      | false =>
        -- wide since the switch, and the rate is the one that was recorded then
        have hdecim : s.device.hwDecimation = 1 := (h.wide hwide hfresh hdevice).1
        have hrate : s.scanWideRate = kFsHz := (h.wide hwide hfresh hdevice).2
        simp [ScanRateState.selectScanRate, hscan, hwide, ScanRateState.effectiveScanRate,
          SDRplayDevice.deliveredRate, hdecim, hrate]
      | true =>
        have hnarrow : s.device.hwDecimation = kDecim := h.fresh hfresh hdevice
        simp [ScanRateState.selectScanRate, hscan, hwide, ScanRateState.effectiveScanRate,
          SDRplayDevice.deliveredRate, hnarrow]
  | false =>
    cases hwide : s.scanWideActive with
    | false =>
      have hnarrow : s.device.hwDecimation = kDecim := h.narrow hwide hdevice
      simp [ScanRateState.selectScanRate, hscan, hwide, ScanRateState.effectiveScanRate,
        SDRplayDevice.deliveredRate, hnarrow, kFsHz, kDecim, INPUT_RATE]
    | true =>
      obtain ⟨-, -, hdecim⟩ := setScanWideMode_connected hdevice false a.2
      -- a scan has ended: the hardware is narrow after the switch, or was before it
      have hselected : (s.selectScanRate a.2).effectiveScanRate = INPUT_RATE ∧
          (s.selectScanRate a.2).device.hwDecimation =
            if a.2.okDecim then kDecim else s.device.hwDecimation := by
        simp [ScanRateState.selectScanRate, hscan, hwide, ScanRateState.effectiveScanRate,
          TunerController.setScanWideMode, hdecim]
      unfold SDRplayDevice.deliveredRate
      rw [hselected.1, hselected.2]
      cases hok : a.2.okDecim with
      | true => simp [kFsHz, kDecim, INPUT_RATE]
      | false =>
        cases hfresh : fresh with
        | true =>
          have hnarrow : s.device.hwDecimation = kDecim := h.fresh hfresh hdevice
          simp [hnarrow, kFsHz, kDecim, INPUT_RATE]
        | false =>
          have hdecim : s.device.hwDecimation = 1 := (h.wide hwide hfresh hdevice).1
          simp [hdecim, kFsHz, INPUT_RATE]

/-- A switch that holds keeps track of the rates. -/
theorem RatesTracked.select (h : RatesTracked (s, fresh)) {a : SdrplayAnswers}
    (hc : s.app.session.rtlConnected = true → SwitchHolds s fresh a) :
    RatesTracked (s.selectScanRate a,
      fresh && !(s.app.scanEngine.active && !s.scanWideActive)) := by
  have hconnected : s.device.connected = s.app.session.rtlConnected := h.connected
  unfold SwitchHolds at hc
  cases hscan : s.app.scanEngine.active <;> cases hwide : s.scanWideActive <;>
    simp only [hscan, hwide] at hc
  · -- nothing to switch
    have hsame : s.selectScanRate a = s := by simp [ScanRateState.selectScanRate, hscan, hwide]
    rw [hsame]
    simpa using h
  · -- back to the narrow rate
    have hselect : s.selectScanRate a =
        { s with
          device := (s.device.setScanWideMode false a).2
          scanWideActive := false
          scanWideRate := INPUT_RATE } := by
      simp [ScanRateState.selectScanRate, hscan, hwide, TunerController.setScanWideMode]
    rw [hselect]
    cases hon : s.device.connected with
    | false =>
      have hsame : (s.device.setScanWideMode false a).2 = s.device := by
        simp [SDRplayDevice.setScanWideMode, hon]
      rw [hsame]
      refine ⟨hconnected, h.inputRate, ?_, ?_, ?_⟩ <;> simp [hon]
    | true =>
      obtain ⟨hstill, hrate, hdecim⟩ := setScanWideMode_connected hon false a
      -- a call that fails keeps the factor, and a fresh connection has the narrow one
      have hnarrow : (s.device.setScanWideMode false a).2.hwDecimation = kDecim := by
        rw [hdecim]
        rcases hc (hconnected.symm.trans hon) with hok | hfresh
        · simp [hok]
        · have hold : s.device.hwDecimation = kDecim := h.fresh hfresh hon
          simp [hold]
      refine ⟨?_, Or.inr (by simpa using hrate), ?_, ?_, ?_⟩
      · exact hstill.trans (hon.symm.trans hconnected)
      · exact fun _ _ => hnarrow
      · exact fun _ _ => hnarrow
      · intro hactive
        cases hactive
  · -- to the wide rate
    have hselect : s.selectScanRate a =
        { s with
          device := (s.device.setScanWideMode true a).2
          scanWideRate :=
            if (s.device.setScanWideMode true a).2.inputRate ≠ 0 then
              (s.device.setScanWideMode true a).2.inputRate
            else INPUT_RATE
          scanWideActive := true } := by
      simp only [ScanRateState.selectScanRate, hscan, hwide, TunerController.setScanWideMode]
      rfl
    rw [hselect]
    cases hon : s.device.connected with
    | false =>
      have hsame : (s.device.setScanWideMode true a).2 = s.device := by
        simp [SDRplayDevice.setScanWideMode, hon]
      rw [hsame]
      refine ⟨hconnected, h.inputRate, ?_, ?_, ?_⟩ <;> simp [hon]
    | true =>
      obtain ⟨hstill, hrate, hdecim⟩ := setScanWideMode_connected hon true a
      -- only a call that succeeds takes the decimation away
      have hok : a.okDecim = true := hc (hconnected.symm.trans hon)
      refine ⟨?_, Or.inl (by simpa using hrate), ?_, ?_, ?_⟩
      · exact hstill.trans (hon.symm.trans hconnected)
      · intro hactive
        cases hactive
      · intro hfresh
        simp at hfresh
      · intro _ _ _
        simp [hdecim, hok, hrate, kFsHz]
  · -- the scan goes on
    have hsame : s.selectScanRate a = s := by simp [ScanRateState.selectScanRate, hscan, hwide]
    rw [hsame]
    simpa using h

theorem selectScanRate_app (s : ScanRateState) (a : SdrplayAnswers) :
    (s.selectScanRate a).app = s.app := by
  unfold ScanRateState.selectScanRate
  dsimp only
  (repeat' split) <;> rfl

theorem RatesTracked.main (h : RatesTracked (s, fresh)) {env : Env} {a : SdrplayAnswers}
    (hc : SwitchesHold (s, fresh) (.main env, a)) :
    RatesTracked ((scanRateRun cfg).step (s, fresh) (.main env, a)) := by
  by_cases hpc : s.app.pc = .runScan
  · -- nothing is asked of the tuner in this step
    have hselected := h.select fun hon => hc ⟨hpc, hon⟩
    have hcalls : (s.app.mainStep cfg env).2 = [] := by simp [Application.mainStep, hpc]
    have hsession : (s.app.mainStep cfg env).1.session = s.app.session := by
      simp [Application.mainStep, hpc]
    have hstep : (scanRateRun cfg).step (s, fresh) (.main env, a) =
        ({ s.selectScanRate a with app := (s.app.mainStep cfg env).1 },
          fresh && !(s.app.scanEngine.active && !s.scanWideActive)) := by
      simp [scanRateRun, ScanRateState.step, ScanRateState.beforeRun, observeFresh, hpc, hcalls]
    rw [hstep]
    refine ⟨?_, hselected.inputRate, hselected.narrow, hselected.fresh, hselected.wide⟩
    have hconnected := hselected.connected
    simp only [selectScanRate_app] at hconnected
    exact hconnected.trans (congrArg TunerSession.rtlConnected hsession.symm)
  · -- the device does what the session asks of it
    have hfollows := follows_mainStep cfg env a h.connected
    have hstep : (scanRateRun cfg).step (s, fresh) (.main env, a) =
        ({ s with
            app := (s.app.mainStep cfg env).1
            device := (s.app.mainStep cfg env).2.foldl (·.call env.answers a) s.device },
          fresh || ((s.app.mainStep cfg env).2.contains .connect && env.answers.connectOk)) := by
      simp [scanRateRun, ScanRateState.step, ScanRateState.beforeRun, observeFresh, hpc]
    rw [hstep]
    cases hconnects : (s.app.mainStep cfg env).2.contains .connect && env.answers.connectOk with
    | true =>
      have hnarrow := hfollows.fresh hconnects
      -- a connect makes the hardware narrow, whatever it was
      refine ⟨hfollows.connected, ?_, fun _ _ => hnarrow, fun _ _ => hnarrow, ?_⟩
      · rcases hfollows.inputRate with hsame | hset
        · simpa [hsame] using h.inputRate
        · exact Or.inr hset
      · intro _ hfresh
        simp at hfresh
    | false =>
      obtain ⟨hkept, hstill⟩ := hfollows.kept hconnects
      -- no connect, so a device that is connected has been so before
      have hwas : ((s.app.mainStep cfg env).2.foldl (·.call env.answers a) s.device).connected =
          true → s.device.connected = true := by
        intro hon
        exact hstill (hfollows.connected.symm.trans hon)
      refine ⟨hfollows.connected, ?_, ?_, ?_, ?_⟩
      · rcases hfollows.inputRate with hsame | hset
        · simpa [hsame] using h.inputRate
        · exact Or.inr hset
      · intro hwide hon
        exact hkept.trans (h.narrow hwide (hwas hon))
      · intro hfresh hon
        exact hkept.trans (h.fresh (by simpa using hfresh) (hwas hon))
      · intro hwide hfresh hon
        obtain ⟨hdecim, hrate⟩ := h.wide hwide (by simpa using hfresh) (hwas hon)
        exact ⟨hkept.trans hdecim, hrate⟩

theorem ratesTracked_step (cfg : AppConfig) (p : ScanRateState × Bool)
    (a : AppAction × SdrplayAnswers) (h : RatesTracked p) (hc : SwitchesHold p a) :
    RatesTracked ((scanRateRun cfg).step p a) := by
  obtain ⟨action, hw⟩ := a
  by_cases hmain : ∃ env, action = .main env
  · obtain ⟨env, rfl⟩ := hmain
    exact RatesTracked.main h hc
  · have hown := p.1.app.step_own cfg fun env he => hmain ⟨env, he⟩
    have hstep : (scanRateRun cfg).step p (action, hw) =
        ({ p.1 with app := (p.1.app.step cfg action).1 }, p.2) := by
      cases action with
      | main env => exact absurd ⟨env, rfl⟩ hmain
      | _ => rfl
    rw [hstep]
    refine ⟨?_, h.inputRate, h.narrow, h.fresh, h.wide⟩
    exact h.connected.trans (congrArg TunerSession.rtlConnected hown.session.symm)

end steps

/-! ### Main result -/

/-- In every run, every call of `runIfActive` on a connected device is passed
    the rate that the hardware delivers, if and only if at every such call
    the switch that it makes, or has made, holds. -/
theorem scan_rate_delivered_iff (cfg : AppConfig) (commands : XdrCommandState)
    (acts : List (AppAction × SdrplayAnswers)) :
    (scanRateRun cfg).Meets RateDelivered (.initial commands, false) acts ↔
      (scanRateRun cfg).Meets SwitchesHold (.initial commands, false) acts := by
  refine (Machine.meets_iff_of_guarded_invariant (ratesTracked_step cfg) ?_
    (ratesTracked_initial commands) acts).symm
  intro p a h
  exact (rateDelivered_iff h a).symm

/-- A stop and a start in the middle of a continuous scan. Every update
    succeeds; the scan goes on at the wide rate on a device that is set up
    for the narrow one. -/
theorem restart_during_scan_keeps_wide_rate :
    let env : Env := ⟨true, ⟨true, true, true, false⟩, true, true, none, none⟩
    let hw : SdrplayAnswers := ⟨true, true, true⟩
    let acts : List AppAction := .fmdxStart :: List.replicate 3 (.main env) ++
      [.xdrLine "Sm".toList false, .clientWrite, .clientWrite] ++
      List.replicate 18 (.main env) ++ .fmdxStop :: List.replicate 5 (.main env) ++
      .fmdxStart :: List.replicate 9 (.main env)
    let p := (scanRateRun ⟨⟨false, true, false⟩, ⟨0, true⟩⟩).run
      (.initial (.create 88500000 0 2 0 85 0 false), false) (acts.map (·, hw))
    RunsConnected p.1 (.main env) ∧
      (p.1.selectScanRate hw).effectiveScanRate = 2048000 ∧
      (p.1.selectScanRate hw).device.deliveredRate = 256000 := by
  decide +kernel

end FmSdrTuner
