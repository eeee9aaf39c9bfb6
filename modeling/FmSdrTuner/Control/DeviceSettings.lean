import FmSdrTuner.Control.Station

/-! # The settings of the device across reconnects

    A device that is opened starts from its power-on defaults. What REST
    has set before is set again from two places: `TunerController::connect`
    replays the LNA state, the antenna and the bias tee of an SDRplay device
    as they were last set, `TunerSession::connect` replays the frequency
    correction that the process was started with. -/

namespace FmSdrTuner

/-! ### The device -/

/-- What is plugged in. Antenna and bias tee can be set on an RSPdx only. -/
structure Hardware where
  kind : SourceKind
  isRspDx : Bool
  deriving DecidableEq, Repr

/-- The settings written to a device since it was opened. -/
structure DeviceSettings where
  ppm : Int
  lnaState : Int
  antennaSel : Int
  biasTEnable : Bool
  deriving DecidableEq, Repr

/-- The power-on defaults, with the LNA state that `SDRplayDevice::connect`
    begins with. -/
def DeviceSettings.powerOn : DeviceSettings := ⟨0, 4, 0, false⟩

/-- What a call writes. An SDRplay device accepts a frequency correction but
    does not trim its frequency. -/
def DeviceSettings.after (hw : Hardware) (d : DeviceSettings) : DeviceCall → DeviceSettings
  | .connect => powerOn
  | .setFrequencyCorrection ppm => if hw.kind = .sdrPlay then d else { d with ppm := ppm }
  | .setLnaState state => { d with lnaState := clamp state 0 27 }
  | .setAntenna index => if hw.isRspDx then { d with antennaSel := clamp index 0 2 } else d
  | .setBiasTee enable => if hw.isRspDx then { d with biasTEnable := enable } else d
  | _ => d

/-- The settings of the device behind a controller. -/
def TunerController.settings (hw : Hardware) (t : TunerController) : DeviceSettings :=
  t.calls.foldl (DeviceSettings.after hw) .powerOn

/-- The settings that the device has are those that the status shows. -/
def DeviceSettings.Agrees {δ : Type} (hw : Hardware) (d : DeviceSettings)
    (panel : RestPanelState δ) : Prop :=
  match hw.kind with
  | .sdrPlay =>
      d.lnaState = panel.lna ∧
        (hw.isRspDx = true → d.antennaSel = panel.antenna ∧ d.biasTEnable = panel.biasTee)
  | .rtlSdr | .rtlTcp => d.ppm = panel.ppm

/-! ### What a connection writes -/

theorem TunerController.settings_log (hw : Hardware) (t : TunerController)
    (calls : List DeviceCall) :
    (t.log calls).settings hw = calls.foldl (DeviceSettings.after hw) (t.settings hw) :=
  List.foldl_append

theorem TunerConfig.after_gainCalls (cfg : TunerConfig) (c : XdrCommandState) (hw : Hardware)
    (d : DeviceSettings) : (cfg.gainCalls c).foldl (DeviceSettings.after hw) d = d := by
  apply TunerController.foldl_eq_self
  intro call hcall d
  -- whatever the strategy, its calls are about the gain only
  unfold gainCalls at hcall
  split at hcall
  · rcases List.mem_pair.mp hcall with rfl | rfl <;> rfl
  · split at hcall
    · simp only [List.mem_cons, List.not_mem_nil, or_false] at hcall
      rcases hcall with rfl | rfl | rfl <;> rfl
    · split at hcall
      · rcases List.mem_pair.mp hcall with rfl | rfl <;> rfl
      · simp only [List.mem_cons, List.not_mem_nil, or_false] at hcall
        rcases hcall with rfl | rfl | rfl <;> rfl

/-- The settings behind a connection that got through, as the controller
    and the session leave them. -/
def connectedSettings (hw : Hardware) (t : TunerController) (freqCorrectionPpm : Int) :
    DeviceSettings :=
  if hw.kind = .sdrPlay then
    { ppm := 0
      lnaState := clamp t.sdrplayLnaState 0 27
      antennaSel :=
        if hw.isRspDx ∧ 0 < t.sdrplayAntenna then clamp t.sdrplayAntenna 0 2 else 0
      biasTEnable := hw.isRspDx && t.sdrplayBiasTee }
  else { DeviceSettings.powerOn with ppm := freqCorrectionPpm }

/-- A call that may be left out. -/
theorem foldl_optional {hw : Hardware} {p : Prop} [Decidable p] {c : DeviceCall}
    {d : DeviceSettings} :
    (if p then [c] else []).foldl (DeviceSettings.after hw) d =
      if p then d.after hw c else d := by
  split <;> rfl

theorem after_replayed {hw : Hardware} {t : TunerController} (hkind : t.kind = hw.kind) :
    t.replayed.foldl (DeviceSettings.after hw) .powerOn = connectedSettings hw t 0 := by
  unfold TunerController.replayed connectedSettings
  rw [hkind]
  by_cases hplay : hw.kind = .sdrPlay
  · rw [if_pos hplay, if_pos hplay]
    simp only [List.foldl_append, foldl_optional, List.foldl_cons, List.foldl_nil]
    by_cases hdx : hw.isRspDx = true
    · cases t.sdrplayBiasTee <;> by_cases hantenna : 0 < t.sdrplayAntenna <;>
        simp [DeviceSettings.after, DeviceSettings.powerOn, hdx, hantenna]
    · simp [DeviceSettings.after, DeviceSettings.powerOn, hdx]
  · rw [if_neg hplay, if_neg hplay]
    rfl

theorem after_connectCalls {hw : Hardware} {t : TunerController} (hkind : t.kind = hw.kind)
    {answers : TunerAnswers} (hok : answers.connectOk = true) (params : SessionParams)
    (freqHz : Nat) (d : DeviceSettings) :
    ((TunerSession.connectCalls params freqHz).flatMap (t.deviceCalls answers)).foldl
        (DeviceSettings.after hw) d =
      connectedSettings hw t params.freqCorrectionPpm := by
  have hppm : (if params.freqCorrectionPpm ≠ 0 then
      [TunerCall.setFrequencyCorrection params.freqCorrectionPpm] else []).flatMap
        (t.deviceCalls answers) =
      if params.freqCorrectionPpm ≠ 0 then
        [.setFrequencyCorrection params.freqCorrectionPpm] else [] := by
    split <;> rfl
  have hcalls : (TunerSession.connectCalls params freqHz).flatMap (t.deviceCalls answers) =
      .connect :: t.replayed ++ ([.setFrequency freqHz, .setSampleRate] ++
        if params.freqCorrectionPpm ≠ 0 then
          [.setFrequencyCorrection params.freqCorrectionPpm] else []) := by
    rw [TunerSession.connectCalls, List.flatMap_append, hppm]
    simp [TunerController.deviceCalls, TunerController.connectCalls, hok]
  have hreplayed := after_replayed hkind
  rw [hcalls, List.foldl_append, List.foldl_cons]
  show List.foldl _ (List.foldl _ DeviceSettings.powerOn t.replayed) _ = _
  rw [hreplayed, List.foldl_append, foldl_optional]
  unfold connectedSettings
  by_cases hplay : hw.kind = .sdrPlay
  · simp [DeviceSettings.after, hplay]
  · -- a correction of 0 is not sent, and is what a fresh device has
    by_cases hzero : params.freqCorrectionPpm = 0
    · simp [DeviceSettings.after, hplay, hzero, DeviceSettings.powerOn]
    · simp [DeviceSettings.after, hplay, hzero]

/-! ### Connections of the main loop -/

/-- A step of the main loop that connects makes the calls of the session. -/
theorem Application.mainStep_connects {cfg : AppConfig} {env : Env} {s : Application}
    (hmem : .connect ∈ (s.mainStep cfg env).2)
    (hconn : (s.mainStep cfg env).1.session.rtlConnected = true) :
    env.answers.connectOk = true ∧ ∃ before, (s.mainStep cfg env).2 =
      before ++ TunerSession.connectCalls cfg.session s.commands.requestedFrequencyHz := by
  -- the tuner is started, or a read has failed
  rcases mainStep_connect_pc hmem with hpc | hpc
  · simp only [mainStep, hpc] at hmem hconn ⊢
    obtain ⟨hok, hcalls⟩ := TunerSession.connect_connected hmem hconn
    exact ⟨hok, [], hcalls⟩
  · by_cases hread : env.readOk = true
    · simp only [mainStep, hpc, if_pos hread] at hmem
      cases hmem
    · simp only [mainStep, hpc, if_neg hread] at hmem hconn ⊢
      obtain ⟨hok, hcalls⟩ := TunerSession.note_connects hmem hconn
      exact ⟨hok, [.disconnect], hcalls⟩

namespace Station
variable {δ : Type} (cfg : StationConfig) (num : GainNumbers δ) (outcomes : Outcomes)
  (isRspDx : Bool)

/-- Does the step open the device, so that it is connected afterwards? -/
def connects (s : Station δ) : StationAction → Bool
  | .app (.main env) _ =>
      let next := s.app.mainStep cfg.app env
      next.2.contains .connect && next.1.session.rtlConnected
  | _ => false

def hardware : Hardware := ⟨cfg.tuner.kind, isRspDx⟩

/-- After a step that connects, the device has the settings that the status
    shows. -/
def ReconnectKeeps (s : Station δ) (a : StationAction) : Prop :=
  s.connects cfg a = true →
    ((s.step cfg num outcomes a).tuner.settings (hardware cfg isRspDx)).Agrees
      (hardware cfg isRspDx) (s.step cfg num outcomes a).panel

/-- When a step connects, the status shows settings that a reconnect brings
    back: a frequency correction that is the one of the start; an LNA state
    and an antenna that the device has. -/
def Restorable (s : Station δ) (a : StationAction) : Prop :=
  s.connects cfg a = true →
    match cfg.tuner.kind with
    | .sdrPlay =>
        (0 ≤ s.panel.lna ∧ s.panel.lna ≤ 27) ∧
          (isRspDx = true → 0 ≤ s.panel.antenna ∧ s.panel.antenna ≤ 2)
    | .rtlSdr | .rtlTcp => s.panel.ppm = cfg.tuner.freqCorrectionPpm

/-- What the controller would replay is what the status shows. -/
structure Shadowed (s : Station δ) : Prop where
  kind_eq : s.tuner.kind = cfg.tuner.kind
  lna_eq : cfg.tuner.kind = .sdrPlay → s.tuner.sdrplayLnaState = s.panel.lna
  antenna_eq : cfg.tuner.kind = .sdrPlay → s.tuner.sdrplayAntenna = s.panel.antenna
  biasTee_eq : cfg.tuner.kind = .sdrPlay → s.tuner.sdrplayBiasTee = s.panel.biasTee

theorem initial_shadowed (ofInt : Int → δ) (commands : XdrCommandState) :
    (Station.initial cfg ofInt commands).Shadowed cfg := by
  unfold Station.initial TunerConfig.controller
  by_cases hplay : cfg.tuner.kind = .sdrPlay
  · rw [if_pos hplay]
    exact ⟨rfl, fun _ => rfl, fun _ => rfl, fun _ => rfl⟩
  · rw [if_neg hplay]
    exact ⟨rfl, fun h => absurd h hplay, fun h => absurd h hplay, fun h => absurd h hplay⟩

/-- A main-loop step only adds to the calls. -/
theorem mainStep_tuner (s : Station δ) (env : Env) (servo : Servo) :
    ∃ calls, (s.mainStep cfg env servo).tuner = s.tuner.log calls := by
  unfold mainStep
  dsimp only
  split
  · exact ⟨_, congrArg (fun calls => { s.tuner with calls := calls }) (List.append_assoc _ _ _)⟩
  · exact ⟨_, rfl⟩

variable {cfg} in
/-- Calls of the device do not matter to what is replayed. -/
theorem Shadowed.log {s : Station δ} {t : TunerController} {calls : List DeviceCall}
    (h : ({ s with tuner := t } : Station δ).Shadowed cfg) (htuner : s.tuner = t.log calls) :
    s.Shadowed cfg := by
  constructor
  · rw [htuner]
    exact h.kind_eq
  · rw [htuner]
    exact h.lna_eq
  · rw [htuner]
    exact h.antenna_eq
  · rw [htuner]
    exact h.biasTee_eq

theorem control_shadowed {s : Station δ} (h : s.Shadowed cfg) (c : ControlCall) :
    (s.controlStep cfg num outcomes c).Shadowed cfg := by
  cases c with
  | setLnaState state =>
    have hset := TunerController.sdrplayCall_log outcomes
      { s.tuner with sdrplayLnaState := state } (.setLnaState state)
    exact Shadowed.log (t := { s.tuner with sdrplayLnaState := state })
      ⟨h.kind_eq, fun _ => rfl, h.antenna_eq, h.biasTee_eq⟩ hset
  | setAntenna index =>
    have hset := TunerController.sdrplayCall_log outcomes
      { s.tuner with sdrplayAntenna := index } (.setAntenna index)
    exact Shadowed.log (t := { s.tuner with sdrplayAntenna := index })
      ⟨h.kind_eq, h.lna_eq, fun _ => rfl, h.biasTee_eq⟩ hset
  | setBiasTee enable =>
    have hset := TunerController.sdrplayCall_log outcomes
      { s.tuner with sdrplayBiasTee := enable } (.setBiasTee enable)
    exact Shadowed.log (t := { s.tuner with sdrplayBiasTee := enable })
      ⟨h.kind_eq, h.lna_eq, h.antenna_eq, fun _ => rfl⟩ hset
  | setDeemphasis mode | setBlendMode mode =>
    unfold controlStep RestBackend.control
    dsimp only
    split <;> exact ⟨h.kind_eq, h.lna_eq, h.antenna_eq, h.biasTee_eq⟩
  | _ => exact ⟨h.kind_eq, h.lna_eq, h.antenna_eq, h.biasTee_eq⟩

theorem step_shadowed {s : Station δ} (a : StationAction) (h : s.Shadowed cfg) :
    (s.step cfg num outcomes a).Shadowed cfg := by
  cases a with
  | control c => exact control_shadowed cfg num outcomes h c
  | app a servo =>
    cases a with
    | main env =>
      obtain ⟨calls, htuner⟩ := s.mainStep_tuner cfg env servo
      exact Shadowed.log (t := s.tuner)
        ⟨h.kind_eq, h.lna_eq, h.antenna_eq, h.biasTee_eq⟩ htuner
    | _ => exact ⟨h.kind_eq, h.lna_eq, h.antenna_eq, h.biasTee_eq⟩

/-- The settings of the device after a step that connects. -/
theorem connects_settings {s : Station δ} (h : s.Shadowed cfg) {env : Env} {servo : Servo}
    (hconn : s.connects cfg (.app (.main env) servo) = true) :
    (s.mainStep cfg env servo).tuner.settings (hardware cfg isRspDx) =
      connectedSettings (hardware cfg isRspDx) s.tuner cfg.tuner.freqCorrectionPpm := by
  obtain ⟨hmem, hafter⟩ := Bool.and_eq_true_iff.mp hconn
  obtain ⟨hok, before, hcalls⟩ :=
    Application.mainStep_connects (List.contains_iff_mem.mp hmem) hafter
  have hkind : s.tuner.kind = (hardware cfg isRspDx).kind := h.kind_eq
  unfold mainStep
  dsimp only
  split
  · rw [TunerController.settings_log, TunerConfig.after_gainCalls, TunerController.settings_log,
      hcalls, List.flatMap_append, List.foldl_append, after_connectCalls hkind hok]
    rfl
  · rw [TunerController.settings_log, hcalls, List.flatMap_append, List.foldl_append,
      after_connectCalls hkind hok]
    rfl

theorem clamp_eq_self_iff {v lo hi : Int} :
    clamp v lo hi = v ↔ lo ≤ v ∧ v ≤ hi := by
  unfold clamp
  split
  · omega
  · split <;> omega

/-- One step. -/
theorem reconnectKeeps_iff {s : Station δ} (h : s.Shadowed cfg) (a : StationAction) :
    s.ReconnectKeeps cfg num outcomes isRspDx a ↔ s.Restorable cfg isRspDx a := by
  unfold ReconnectKeeps Restorable
  refine imp_congr_right fun hconn => ?_
  obtain ⟨env, servo, rfl⟩ : ∃ env servo, a = .app (.main env) servo := by
    cases a with
    | control c => cases hconn
    | app a servo =>
      cases a with
      | main env => exact ⟨env, servo, rfl⟩
      | _ => cases hconn
  have hsettings := connects_settings cfg isRspDx h hconn
  have hpanel : (s.step cfg num outcomes (.app (.main env) servo)).panel = s.panel := rfl
  show ((s.mainStep cfg env servo).tuner.settings _).Agrees _ _ ↔ _
  rw [hsettings, hpanel]
  unfold DeviceSettings.Agrees connectedSettings
  have hkind : (hardware cfg isRspDx).kind = cfg.tuner.kind := rfl
  rw [hkind]
  cases hk : cfg.tuner.kind with
  | rtlSdr | rtlTcp => exact eq_comm
  | sdrPlay =>
    have hlna := h.lna_eq hk
    have hantenna := h.antenna_eq hk
    have hbias := h.biasTee_eq hk
    simp only [if_true, hlna, hantenna, hbias]
    refine and_congr (clamp_eq_self_iff) (imp_congr_right fun hdx => ?_)
    have hhardware : (hardware cfg isRspDx).isRspDx = true := hdx
    simp only [hhardware, true_and, Bool.true_and, and_true]
    -- an antenna of 0 is not replayed, and is what a fresh device has
    split
    · rw [clamp_eq_self_iff]
    · omega

/-- Every reconnect of every run brings the settings of the status back
    exactly if, at every reconnect, these are settings that it brings back. -/
theorem reconnects_keep_settings_iff (ofInt : Int → δ) (commands : XdrCommandState)
    (acts : List StationAction) :
    let M := stationMachine cfg num outcomes
    let start := Station.initial cfg ofInt commands
    M.Meets (ReconnectKeeps cfg num outcomes isRspDx) start acts ↔
      M.Meets (Restorable cfg isRspDx) start acts := by
  intro M start
  have hstart : start.Shadowed cfg := initial_shadowed cfg ofInt commands
  exact M.meets_iff_of_invariant (fun s a h => step_shadowed cfg num outcomes a h)
    (fun s a h => reconnectKeeps_iff cfg num outcomes isRspDx h a) hstart acts

/-- An RTL-SDR without a correction of its own: `ppm` is set to 5, the tuner
    is stopped and started, and then the device is back at 0. -/
theorem reconnect_loses_ppm :
    let cfg : StationConfig :=
      ⟨⟨.rtlSdr, -1, -1, 0, false, false, 18, true, 8, 0, false⟩, true, true, 1⟩
    let servo : Servo := ⟨false, false, false, false, false⟩
    let main : StationAction := .app (.main
      { tuneOk := true, answers := ⟨true, true, true, false⟩, readOk := true, running := true,
        center := none, adaptive := none }) servo
    let M := stationMachine cfg wholeGains fun _ _ => true
    let s := M.run (Station.initial cfg (· * 10) (.create 100000000 0 2 0 100 0 false))
      ([.app .fmdxStart servo, main, main, main, .control (.setPpm 5), .app .fmdxStop servo] ++
        List.replicate 13 main ++ [.app .fmdxStart servo, main, main])
    s.connects cfg main = true ∧
      ((M.step s main).tuner.settings ⟨.rtlSdr, false⟩).ppm = 0 ∧
      (M.step s main).panel.ppm = 5 := by
  decide +kernel

end Station

end FmSdrTuner
