import FmSdrTuner.Framework.Machine
import FmSdrTuner.Control.CommandState
import FmSdrTuner.Control.TunerController

/-! # The REST panel

    `/api/status` reports the settings that REST can change. Some are held
    by `XdrCommandState`; those without an atomic of their own are mirrored
    in `RestPanelState`. The controls of `Application::run` write the mirror
    first and call the tuner afterwards: when the tuner refuses, the key is
    rejected, but the mirror has changed. So a rejected key leaves the
    status alone exactly if it asks for what the status says anyway. -/

namespace FmSdrTuner

/-- What the code does with a gain of type `double`. -/
structure GainNumbers (δ : Type) where
  /-- Does `strtod` convert a prefix of the text, without a range error? -/
  isDouble : Text → Bool
  strtod : Text → δ
  /-- `std::clamp(db, 0.0, 50.0)`. -/
  clamp : δ → δ
  /-- `static_cast<uint32_t>(std::lround(db * 10.0))`. -/
  tenths : δ → Nat
  /-- With one decimal. -/
  print : δ → Text

/-! ### State -/

/-- `RestPanelState`. -/
structure RestPanelState (δ : Type) where
  gainDb : δ
  autoGain : Bool
  lna : Int
  antenna : Int
  biasTee : Bool
  ppm : Int
  rtlAgc : Bool
  deriving DecidableEq, Repr

/-- What the controls of `Application::run` act on. -/
structure RestBackend (δ : Type) where
  panel : RestPanelState δ
  commands : XdrCommandState
  tuner : TunerController
  /-- `defaultBlendMode`, from the configuration. -/
  defaultBlendMode : Int
  deriving DecidableEq, Repr

/-- The setting fields of `/api/status`. -/
structure SettingFields where
  frequencyHz : Nat
  gainDb : Text
  autoGain : Bool
  lna : Int
  antenna : Int
  biasTee : Bool
  ppm : Int
  rtlAgc : Bool
  deemphasis : Int
  blend : Int
  forceMono : Bool
  volume : Int
  deriving DecidableEq, Repr

/-! ### Controls -/

/-- The effect of a write on `XdrCommandState`. -/
def XdrCommandState.write (c : XdrCommandState) : Write → XdrCommandState
  | .command st => c.store st
  | _ => c

namespace RestBackend
variable {δ : Type} (num : GainNumbers δ) (outcomes : Outcomes)

/-- The stores of a control that reaches `XdrCommandState` only. -/
def stores (b : RestBackend δ) (c : ControlCall) : RestBackend δ :=
  { b with commands := (controlWrites c).foldl XdrCommandState.write b.commands }

/-- The controls that `Application::run` installs, with what they return.
    What `start`, `stop` and `resetStats` do is not a setting. -/
def control (b : RestBackend δ) : ControlCall → RestBackend δ × Bool
  | .setFrequencyHz hz => (b.stores (.setFrequencyHz hz), true)
  | .setGainDb db =>
      let panel := { b.panel with gainDb := num.clamp (num.strtod db), autoGain := false }
      let manual := b.tuner.setGainMode outcomes true
      let set := manual.1.setGain outcomes (num.tenths panel.gainDb)
      ({ b with panel := panel, tuner := set.1 }, set.2)
  | .setAutoGain on =>
      let manual := b.tuner.setGainMode outcomes (!on)
      let set := manual.1.setAGC outcomes on
      ({ b with panel := { b.panel with autoGain := on }, tuner := set.1 }, set.2)
  | .setBandwidthHz hz => (b.stores (.setBandwidthHz hz), true)
  | .setLnaState state =>
      let set := b.tuner.setLnaState outcomes state
      ({ b with panel := { b.panel with lna := state }, tuner := set.1 }, set.2)
  | .setAntenna index =>
      let set := b.tuner.setAntenna outcomes index
      ({ b with panel := { b.panel with antenna := index }, tuner := set.1 }, set.2)
  | .setBiasTee enable =>
      let set := b.tuner.setBiasTee outcomes enable
      ({ b with panel := { b.panel with biasTee := enable }, tuner := set.1 }, set.2)
  | .setPpm ppm =>
      let set := b.tuner.setFrequencyCorrection outcomes ppm
      ({ b with panel := { b.panel with ppm := ppm }, tuner := set.1 }, set.2)
  | .setRtlAgc enable =>
      let set := b.tuner.setAGC outcomes enable
      ({ b with panel := { b.panel with rtlAgc := enable }, tuner := set.1 }, set.2)
  | .setDeemphasis mode =>
      if mode < 0 ∨ 2 < mode then (b, false) else (b.stores (.setDeemphasis mode), true)
  | .setBlendMode mode =>
      if mode < 0 ∨ 2 < mode then (b, false) else (b.stores (.setBlendMode mode), true)
  | .setForceMono mono => (b.stores (.setForceMono mono), true)
  | .setVolume volume => (b.stores (.setVolume volume), true)
  | .start => (b, true)
  | .stop => (b, true)
  | .resetStats => (b, true)

/-- The setting fields of `statusJson`. -/
def settingFields (b : RestBackend δ) : SettingFields where
  frequencyHz := b.commands.requestedFrequencyHz
  gainDb := num.print b.panel.gainDb
  autoGain := b.panel.autoGain
  lna := b.panel.lna
  antenna := b.panel.antenna
  biasTee := b.panel.biasTee
  ppm := b.panel.ppm
  rtlAgc := b.panel.rtlAgc
  deemphasis := b.commands.requestedDeemphasis
  blend := if 0 ≤ b.commands.requestedBlendMode then b.commands.requestedBlendMode
    else b.defaultBlendMode
  forceMono := b.commands.requestedForceMono
  volume := b.commands.requestedVolume

end RestBackend

/-! ### One control -/

section control
variable {δ : Type} (num : GainNumbers δ) (outcomes : Outcomes)

/-- What an accepted control makes of the status. -/
def SettingFields.apply (s : SettingFields) : ControlCall → SettingFields
  | .setFrequencyHz hz => { s with frequencyHz := hz }
  | .setGainDb db => { s with gainDb := num.print (num.clamp (num.strtod db)), autoGain := false }
  | .setAutoGain on => { s with autoGain := on }
  | .setLnaState state => { s with lna := state }
  | .setAntenna index => { s with antenna := index }
  | .setBiasTee enable => { s with biasTee := enable }
  | .setPpm ppm => { s with ppm := ppm }
  | .setRtlAgc enable => { s with rtlAgc := enable }
  | .setDeemphasis mode => { s with deemphasis := mode }
  | .setBlendMode mode => { s with blend := mode }
  | .setForceMono mono => { s with forceMono := mono }
  | .setVolume volume => { s with volume := clamp volume 0 100 }
  | .setBandwidthHz _ | .start | .stop | .resetStats => s

/-- Does the tuner refuse a control? The mode is set first when a gain is. -/
def TunerController.refuses (t : TunerController) : ControlCall → Bool
  | .setGainDb db =>
      !outcomes (t.calls.length + 1) (.setGain (num.tenths (num.clamp (num.strtod db))))
  | .setAutoGain on => !outcomes (t.calls.length + 1) (.setAGC on)
  | .setLnaState state =>
      t.kind != .sdrPlay || !outcomes t.calls.length (.setLnaState state)
  | .setAntenna index => t.kind != .sdrPlay || !outcomes t.calls.length (.setAntenna index)
  | .setBiasTee enable => t.kind != .sdrPlay || !outcomes t.calls.length (.setBiasTee enable)
  | .setPpm ppm => !outcomes t.calls.length (.setFrequencyCorrection ppm)
  | .setRtlAgc enable => !outcomes t.calls.length (.setAGC enable)
  | _ => false

/-- Is the mode out of range? These two are checked before anything else. -/
def ControlCall.outOfRange : ControlCall → Bool
  | .setDeemphasis mode | .setBlendMode mode => mode < 0 ∨ 2 < mode
  | _ => false

/-- A control that asks for what the status says anyway. -/
def SettingFields.Shows (s : SettingFields) : ControlCall → Prop
  | .setGainDb db => num.print (num.clamp (num.strtod db)) = s.gainDb ∧ s.autoGain = false
  | .setAutoGain on => on = s.autoGain
  | .setLnaState state => state = s.lna
  | .setAntenna index => index = s.antenna
  | .setBiasTee enable => enable = s.biasTee
  | .setPpm ppm => ppm = s.ppm
  | .setRtlAgc enable => enable = s.rtlAgc
  | _ => True

namespace RestBackend

theorem control_refused (b : RestBackend δ) (c : ControlCall) :
    (b.control num outcomes c).2 = !(b.tuner.refuses num outcomes c || c.outOfRange) := by
  cases c with
  | setLnaState state | setAntenna index | setBiasTee enable =>
    simp only [control, TunerController.setLnaState, TunerController.setAntenna,
      TunerController.setBiasTee, TunerController.sdrplayCall_snd, TunerController.refuses,
      ControlCall.outOfRange]
    simp [bne]
  | setDeemphasis mode | setBlendMode mode =>
    simp only [control, TunerController.refuses, ControlCall.outOfRange, Bool.false_or]
    by_cases hrange : mode < 0 ∨ 2 < mode
    · simp [hrange]
    · simp [hrange]
  | setGainDb db | setAutoGain on =>
    simp [control, TunerController.setGainMode, TunerController.setGain, TunerController.setAGC,
      TunerController.call, TunerController.log, TunerController.refuses, ControlCall.outOfRange]
  | _ =>
    simp [control, TunerController.setFrequencyCorrection, TunerController.setAGC,
      TunerController.call, TunerController.refuses, ControlCall.outOfRange]

/-- Whether or not the tuner refuses, the status shows what was asked for,
    unless the mode is out of range. -/
theorem control_fields (b : RestBackend δ) {c : ControlCall} (hrange : c.outOfRange = false) :
    (b.control num outcomes c).1.settingFields num = (b.settingFields num).apply num c := by
  cases c with
  | setDeemphasis mode =>
    have hmode : ¬(mode < 0 ∨ 2 < mode) := of_decide_eq_false hrange
    simp only [control, if_neg hmode]
    simp [settingFields, stores, controlWrites, hmode, XdrCommandState.write,
      XdrCommandState.store, SettingFields.apply]
  | setBlendMode mode =>
    have hmode : ¬(mode < 0 ∨ 2 < mode) := of_decide_eq_false hrange
    have hpos : 0 ≤ mode := by omega
    simp only [control, if_neg hmode]
    simp [settingFields, stores, controlWrites, hmode, hpos, XdrCommandState.write,
      XdrCommandState.store, SettingFields.apply]
  | _ => rfl

/-- A mode out of range changes nothing. -/
theorem control_outOfRange (b : RestBackend δ) {c : ControlCall} (hrange : c.outOfRange = true) :
    (b.control num outcomes c).1 = b := by
  cases c with
  | setDeemphasis mode | setBlendMode mode =>
    have hmode : mode < 0 ∨ 2 < mode := of_decide_eq_true hrange
    simp only [control, if_pos hmode]
  | _ => cases hrange

/-- A mode is never refused by the tuner. -/
theorem refuses_outOfRange (t : TunerController) {c : ControlCall}
    (hrange : c.outOfRange = true) : t.refuses num outcomes c = false := by
  cases c with
  | setDeemphasis mode | setBlendMode mode => rfl
  | _ => cases hrange

/-- What a refused control leaves of the status. -/
theorem apply_eq_iff_shows (s : SettingFields) (t : TunerController) {c : ControlCall}
    (hrefused : t.refuses num outcomes c = true) : s.apply num c = s ↔ s.Shows num c := by
  obtain ⟨hz, gainDb, autoGain, lna, antenna, biasTee, ppm, rtlAgc, deemphasis, blend, mono,
    volume⟩ := s
  cases c with
  | setGainDb db | setAutoGain on | setLnaState state | setAntenna index | setBiasTee enable
  | setPpm ppm | setRtlAgc enable => simp [SettingFields.apply, SettingFields.Shows]
  | _ => cases hrefused

end RestBackend
end control

/-! ### A list of parameters -/

/-- `applyParams` on its way through the parameters. -/
structure RestRun (δ : Type) where
  backend : RestBackend δ
  result : ParamsResult

section run
variable {δ : Type} (num : GainNumbers δ) (outcomes : Outcomes)

namespace RestRun

/-- The controls as `applyParams` finds them. -/
def controls (r : RestRun δ) : Controls where
  installed _ := true
  answers _ c := (r.backend.control num outcomes c).2
  isDouble := num.isDouble

/-- One round of the loop in `applyParams`, with what the control does. -/
def applyParam (r : RestRun δ) (kv : Text × Text) : RestRun δ where
  backend := match requestedControl (r.controls num outcomes) kv.1 kv.2 with
    | some (some c) => (r.backend.control num outcomes c).1
    | _ => r.backend
  result := FmSdrTuner.applyParam (r.controls num outcomes) r.result kv

/-- The control that a round calls. -/
def requested (r : RestRun δ) (kv : Text × Text) : Option ControlCall :=
  (requestedControl (r.controls num outcomes) kv.1 kv.2).join

/-- Is the key of the round listed under `rejected`? -/
def rejects (r : RestRun δ) (kv : Text × Text) : Bool :=
  (r.applyParam num outcomes kv).result.rejected != r.result.rejected

/-- The controls that accepted, in order. -/
def acceptedCalls : RestRun δ → List (Text × Text) → List ControlCall
  | _, [] => []
  | r, kv :: params =>
      (if r.rejects num outcomes kv then [] else (r.requested num outcomes kv).toList) ++
        (r.applyParam num outcomes kv).acceptedCalls params

end RestRun

/-- `applyParams` as a machine that takes one parameter after the other. -/
def restMachine : Machine (RestRun δ) (Text × Text) := ⟨RestRun.applyParam num outcomes⟩

namespace RestRun

/-- A round without a control leaves the backend alone. -/
theorem applyParam_none {r : RestRun δ} {kv : Text × Text}
    (h : r.requested num outcomes kv = none) :
    (r.applyParam num outcomes kv).backend = r.backend := by
  unfold requested at h
  unfold applyParam
  cases hreq : requestedControl (r.controls num outcomes) kv.1 kv.2 with
  | none => rfl
  | some request =>
    cases request with
    | none => rfl
    | some c => rw [hreq] at h; cases h

/-- A round with a control rejects its key exactly if the control does. -/
theorem applyParam_some {r : RestRun δ} {kv : Text × Text} {c : ControlCall}
    (h : r.requested num outcomes kv = some c) :
    (r.applyParam num outcomes kv).backend = (r.backend.control num outcomes c).1 ∧
      r.rejects num outcomes kv =
        (r.backend.tuner.refuses num outcomes c || c.outOfRange) := by
  have hreq : requestedControl (r.controls num outcomes) kv.1 kv.2 = some (some c) :=
    Option.join_eq_some_iff.mp h
  constructor
  · simp only [applyParam, hreq]
  · have hanswer : (r.controls num outcomes).answers r.result.calls.length c =
        !(r.backend.tuner.refuses num outcomes c || c.outOfRange) :=
      r.backend.control_refused num outcomes c
    unfold rejects applyParam FmSdrTuner.applyParam
    simp only [hreq, hanswer]
    cases r.backend.tuner.refuses num outcomes c || c.outOfRange with
    | true => simp [controls]
    | false => simp [controls]

/-- A rejected key leaves the setting fields of the status as they were. -/
def KeepsStatus (r : RestRun δ) (kv : Text × Text) : Prop :=
  r.rejects num outcomes kv = true →
    (r.applyParam num outcomes kv).backend.settingFields num = r.backend.settingFields num

/-- What the tuner refuses is what the status shows anyway. -/
def RefusedShown (r : RestRun δ) (kv : Text × Text) : Prop :=
  ∀ c, r.requested num outcomes kv = some c → r.backend.tuner.refuses num outcomes c = true →
    (r.backend.settingFields num).Shows num c

/-- One parameter. -/
theorem keepsStatus_iff (r : RestRun δ) (kv : Text × Text) :
    r.KeepsStatus num outcomes kv ↔ r.RefusedShown num outcomes kv := by
  unfold KeepsStatus RefusedShown
  cases hreq : r.requested num outcomes kv with
  | none =>
    rw [r.applyParam_none num outcomes hreq]
    exact iff_of_true (fun _ => rfl) (fun c h => by cases h)
  | some c =>
    obtain ⟨hbackend, hrejects⟩ := r.applyParam_some num outcomes hreq
    rw [hbackend, hrejects]
    -- a mode out of range is refused before anything is written
    by_cases hrange : c.outOfRange = true
    · have hrefused := RestBackend.refuses_outOfRange num outcomes r.backend.tuner hrange
      rw [r.backend.control_outOfRange num outcomes hrange]
      constructor
      · intro _ c' hc' href
        cases hc'
        rw [hrefused] at href
        cases href
      · intro _ _
        rfl
    · have hmode : c.outOfRange = false := Bool.eq_false_iff.mpr hrange
      rw [r.backend.control_fields num outcomes hmode, hmode, Bool.or_false]
      have hshows := RestBackend.apply_eq_iff_shows num outcomes
        (r.backend.settingFields num) r.backend.tuner (c := c)
      constructor
      · intro hkeeps c' hc' href
        cases hc'
        exact (hshows href).mp (hkeeps href)
      · intro hshown href
        exact (hshows href).mpr (hshown c rfl href)

/-- What one parameter makes of the status if a rejected key does not. -/
theorem applyParam_fields {r : RestRun δ} {kv : Text × Text}
    (hkeeps : r.KeepsStatus num outcomes kv) :
    (r.applyParam num outcomes kv).backend.settingFields num =
      (if r.rejects num outcomes kv then [] else (r.requested num outcomes kv).toList).foldl
        (SettingFields.apply num) (r.backend.settingFields num) := by
  -- a rejected parameter keeps the status, an accepted one does what it asks
  by_cases hrejects : r.rejects num outcomes kv = true
  · rw [if_pos hrejects, hkeeps hrejects]
    rfl
  · rw [if_neg hrejects]
    cases hreq : r.requested num outcomes kv with
    | none =>
      rw [r.applyParam_none num outcomes hreq]
      rfl
    | some c =>
      obtain ⟨hbackend, hiff⟩ := r.applyParam_some num outcomes hreq
      have hmode : c.outOfRange = false := by
        rw [Bool.not_eq_true, hiff, Bool.or_eq_false_iff] at hrejects
        exact hrejects.2
      rw [hbackend, r.backend.control_fields num outcomes hmode]
      rfl

/-- All parameters. -/
theorem run_fields {r : RestRun δ} {params : List (Text × Text)}
    (hkeeps : (restMachine num outcomes).Meets (KeepsStatus num outcomes) r params) :
    ((restMachine num outcomes).run r params).backend.settingFields num =
      (r.acceptedCalls num outcomes params).foldl (SettingFields.apply num)
        (r.backend.settingFields num) := by
  induction params generalizing r with
  | nil => rfl
  | cons kv params ih =>
    rw [Machine.run_cons, ih hkeeps.2, acceptedCalls, List.foldl_append,
      ← applyParam_fields num outcomes hkeeps.1]
    rfl

end RestRun

/-- Every rejected key leaves the status as it was, and so the parameters
    change it as those accepted do in order, exactly if what the tuner
    refuses is what the status shows anyway. -/
theorem rejected_keeps_status_iff (backend : RestBackend δ) (params : List (Text × Text)) :
    let M := restMachine num outcomes
    let start : RestRun δ := ⟨backend, ⟨[], 0, []⟩⟩
    (M.Meets (RestRun.KeepsStatus num outcomes) start params ∧
      (M.run start params).backend.settingFields num =
        (start.acceptedCalls num outcomes params).foldl (SettingFields.apply num)
          (backend.settingFields num)) ↔
    M.Meets (RestRun.RefusedShown num outcomes) start params := by
  intro M start
  have hiff := M.meets_congr (RestRun.keepsStatus_iff num outcomes) start params
  constructor
  · intro h
    exact hiff.mp h.1
  · intro h
    have hkeeps := hiff.mpr h
    exact ⟨hkeeps, RestRun.run_fields num outcomes hkeeps⟩

end run

/-! ### Start-up -/

/-- What the configuration and the command line say about the tuner. -/
structure TunerConfig where
  kind : SourceKind
  /-- `sdr.rtl_gain_db`: below zero is automatic. -/
  rtlGainDb : Int
  /-- The gain of the command line, or else `sdr.rtl_gain_db`. -/
  gain : Int
  freqCorrectionPpm : Int
  /-- `sdr.gain_strategy` is `sdrpp`. -/
  useSdrppGainStrategy : Bool
  sdrppRtlAgc : Bool
  sdrppRtlAgcGainDb : Int
  /-- `sdrplay.agc`. -/
  sdrplayAgc : Bool
  lnaState : Int
  antenna : Int
  biasTee : Bool
  deriving DecidableEq, Repr

/-- The tuner at start-up. -/
def TunerConfig.controller (cfg : TunerConfig) : TunerController :=
  if cfg.kind = .sdrPlay then
    (TunerController.create cfg.kind).configureSdrplay cfg.lnaState cfg.antenna cfg.biasTee
  else TunerController.create cfg.kind

/-- The mirror at start-up; `ofInt` is the conversion to `double`. -/
def TunerConfig.panel {δ : Type} (cfg : TunerConfig) (ofInt : Int → δ) : RestPanelState δ where
  gainDb := if 0 ≤ cfg.rtlGainDb then ofInt cfg.rtlGainDb else ofInt 20
  autoGain := cfg.rtlGainDb < 0 ∨ (cfg.kind = .sdrPlay ∧ cfg.sdrplayAgc = true)
  lna := cfg.lnaState
  antenna := cfg.antenna
  biasTee := cfg.biasTee
  ppm := cfg.freqCorrectionPpm
  rtlAgc := cfg.sdrppRtlAgc

/-- Gains in tenths of a dB, for whole numbers. -/
def wholeGains : GainNumbers Int where
  isDouble v := (toInt v).isSome
  strtod v := (toInt v).getD 0 * 10
  clamp db := FmSdrTuner.clamp db 0 500
  tenths db := db.toNat
  print db := decimalInt (db / 10) ++ '.' :: decimalInt (db % 10)

/-- An RTL-SDR has no LNA state: the key is rejected, yet the status shows
    the value asked for. -/
theorem rejected_lna_changes_status :
    let cfg : TunerConfig := ⟨.rtlSdr, -1, -1, 0, false, false, 18, true, 8, 0, false⟩
    let backend : RestBackend Int :=
      ⟨cfg.panel (· * 10), .create 100000000 0 2 0 100 0 false, cfg.controller, 1⟩
    let answer := (restMachine wholeGains fun _ _ => true).run ⟨backend, ⟨[], 0, []⟩⟩
      [("lna".toList, "5".toList)]
    answer.result.rejected = ["lna".toList] ∧
      (backend.settingFields wholeGains).lna = 8 ∧
      (answer.backend.settingFields wholeGains).lna = 5 := by
  decide +kernel

end FmSdrTuner
