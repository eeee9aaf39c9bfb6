import FmSdrTuner.Control.Station

/-! # The gain that the status shows

    Two parties write the gain of the tuner. REST writes it at once and
    mirrors it in the panel; the main loop writes what the AGC mode, the
    custom flags, the gain strategy and the command line select, and leaves
    the panel alone. So the status shows the gain in force exactly as long
    as the main loop selects what the panel shows anyway. -/

namespace FmSdrTuner

/-! ### The gain of the device -/

/-- The gain mode and the manual gain last written to the device since it
    was opened. Which of its own steps the device takes is not looked at. -/
structure DeviceGain where
  manual : Option Bool
  gainTenthsDb : Option Nat
  deriving DecidableEq, Repr

/-- What a call writes. An SDRplay device has one AGC: `SDRplayDevice` opens
    the device with it, `setGainMode` and `setGain` set it too. On an RTL-SDR
    `setAGC` is about the AGC behind the tuner. -/
def DeviceGain.after (kind : SourceKind) (g : DeviceGain) : DeviceCall → DeviceGain
  | .connect => if kind = .sdrPlay then ⟨some false, none⟩ else ⟨none, none⟩
  | .setGainMode manual => { g with manual := some manual }
  | .setGain gainTenthsDb =>
      { manual := if kind = .sdrPlay then some true else g.manual
        gainTenthsDb := some gainTenthsDb }
  | .setAGC enable => if kind = .sdrPlay then { g with manual := some !enable } else g
  | _ => g

/-- The gain of the device behind a controller. -/
def TunerController.gain (kind : SourceKind) (t : TunerController) : DeviceGain :=
  t.calls.foldl (DeviceGain.after kind) ⟨none, none⟩

theorem TunerController.gain_log (kind : SourceKind) (t : TunerController)
    (calls : List DeviceCall) :
    (t.log calls).gain kind = calls.foldl (DeviceGain.after kind) (t.gain kind) :=
  List.foldl_append

/-- The panel shows the gain in force: automatic, or manual at this gain. -/
def DeviceGain.Agrees {δ : Type} (num : GainNumbers δ) (g : DeviceGain)
    (panel : RestPanelState δ) : Prop :=
  if panel.autoGain then g.manual = some false
  else g.manual = some true ∧ g.gainTenthsDb = some (num.tenths panel.gainDb)

/-! ### The gain that the main loop selects -/

/-- The manual gain that the configuration and the commands select, or none
    for automatic gain. -/
def TunerConfig.selectedGain (cfg : TunerConfig) (c : XdrCommandState) : Option Nat :=
  if cfg.kind = .sdrPlay ∧ cfg.sdrplayAgc = true then none
  else if cfg.useSdrppGainStrategy then
    if cfg.kind = .sdrPlay ∧ cfg.sdrppRtlAgc = true then none
    else some (if 0 ≤ cfg.gain then toUInt32 (clamp cfg.gain 0 49 * 10)
      else toUInt32 (cfg.sdrppRtlAgcGainDb * 10))
  else if cfg.isImsAgcEnabled c then none
  else some (toUInt32 (cfg.calculateAppliedGainDb c * 10))

/-- `applyRtlGainAndAgc` writes the gain selected. -/
theorem TunerConfig.after_gainCalls_gain (cfg : TunerConfig) (c : XdrCommandState)
    (g : DeviceGain) :
    let written := (cfg.gainCalls c).foldl (DeviceGain.after cfg.kind) g
    written.manual = some (cfg.selectedGain c).isSome ∧
      ∀ gainTenthsDb, cfg.selectedGain c = some gainTenthsDb →
        written.gainTenthsDb = some gainTenthsDb := by
  unfold gainCalls selectedGain
  by_cases hplay : cfg.kind = .sdrPlay
  · by_cases hagc : cfg.sdrplayAgc = true
    · simp [DeviceGain.after, hplay, hagc]
    · by_cases hsdrpp : cfg.useSdrppGainStrategy = true
      · cases hrtl : cfg.sdrppRtlAgc <;> simp [DeviceGain.after, hplay, hagc, hsdrpp]
      · cases hims : cfg.isImsAgcEnabled c <;> simp [DeviceGain.after, hplay, hagc, hsdrpp]
  · by_cases hsdrpp : cfg.useSdrppGainStrategy = true
    · simp [DeviceGain.after, hplay, hsdrpp]
    · cases hims : cfg.isImsAgcEnabled c <;> simp [DeviceGain.after, hplay, hsdrpp]

/-- What the main loop would write is what the panel shows. -/
def TunerConfig.SelectsShown {δ : Type} (cfg : TunerConfig) (num : GainNumbers δ)
    (c : XdrCommandState) (panel : RestPanelState δ) : Prop :=
  match cfg.selectedGain c with
  | none => panel.autoGain = true
  | some gainTenthsDb => panel.autoGain = false ∧ num.tenths panel.gainDb = gainTenthsDb

theorem TunerConfig.agrees_gainCalls_iff {δ : Type} (cfg : TunerConfig) (num : GainNumbers δ)
    (c : XdrCommandState) (g : DeviceGain) (panel : RestPanelState δ) :
    ((cfg.gainCalls c).foldl (DeviceGain.after cfg.kind) g).Agrees num panel ↔
      cfg.SelectsShown num c panel := by
  obtain ⟨hmanual, hgain⟩ := cfg.after_gainCalls_gain c g
  unfold DeviceGain.Agrees SelectsShown
  cases hselected : cfg.selectedGain c with
  | none =>
    rw [hmanual, hselected]
    cases panel.autoGain <;> simp
  | some gainTenthsDb =>
    rw [hmanual, hgain gainTenthsDb hselected, hselected]
    cases panel.autoGain <;> simp [eq_comm]

/-! ### Steps -/

namespace Station
variable {δ : Type} (cfg : StationConfig) (num : GainNumbers δ) (outcomes : Outcomes)

/-- A client has asked for another gain and the main loop has yet to write it. -/
def gainPending (s : Station δ) : Bool :=
  s.app.commands.pendingGain || s.app.commands.pendingAGC || s.gainChanged

/-- The status shows the gain in force, if there is one and no other is
    pending. -/
def ShowsGain (s : Station δ) : Prop :=
  s.app.session.rtlConnected = true → s.gainPending = false →
    (s.tuner.gain cfg.tuner.kind).Agrees num s.panel

/-- After the step the status shows the gain in force. -/
def GainShown (s : Station δ) (a : StationAction) : Prop :=
  (s.step cfg num outcomes a).ShowsGain cfg num

/-- Does a step of the main loop write the gain? -/
def writesGain (s : Station δ) (env : Env) (servo : Servo) : Bool :=
  let next := s.app.mainStep cfg.app env
  s.appliesGain servo next.2 && next.1.session.rtlConnected

/-- What the main loop writes is what the panel shows, unless it is to write
    again. Manual gain is only returned to where the gain last written is the
    one shown. On an SDRplay device `rtl_agc` is the AGC, too. -/
def WritesShown (s : Station δ) : StationAction → Prop
  | .app (.main env) servo =>
      s.writesGain cfg env servo = true → s.app.commands.pendingGain = false →
        s.app.commands.pendingAGC = false →
          cfg.tuner.SelectsShown num s.app.commands s.panel
  | .control (.setAutoGain false) =>
      s.app.session.rtlConnected = true → s.gainPending = false →
        (s.tuner.gain cfg.tuner.kind).gainTenthsDb = some (num.tenths s.panel.gainDb)
  | .control (.setRtlAgc enable) =>
      s.app.session.rtlConnected = true → s.gainPending = false →
        cfg.tuner.kind = .sdrPlay → enable = s.panel.autoGain
  | _ => True

/-- The main loop remembers a request only between its two polls. -/
def ChangeTaken (s : Station δ) : Prop :=
  s.gainChanged = true → s.app.pc = .pollAgc ∨ s.app.pc = .pollBandwidth

/-- Without a connect, the session does not touch the gain. -/
theorem after_deviceCalls {t : TunerController} {answers : TunerAnswers} {kind : SourceKind}
    {calls : List TunerCall} (h : .connect ∉ calls) (g : DeviceGain) :
    (calls.flatMap (t.deviceCalls answers)).foldl (DeviceGain.after kind) g = g := by
  apply TunerController.foldl_eq_self
  intro c hc g
  obtain ⟨call, hcall, hmem⟩ := List.mem_flatMap.mp hc
  cases call with
  | connect => exact absurd hcall h
  | _ =>
    obtain rfl := List.mem_singleton.mp hmem
    rfl

/-! ### The main loop -/

theorem mainStep_gain (s : Station δ) (env : Env) (servo : Servo) :
    let next := s.app.mainStep cfg.app env
    let called := (next.2.flatMap (s.tuner.deviceCalls env.answers)).foldl
      (DeviceGain.after cfg.tuner.kind) (s.tuner.gain cfg.tuner.kind)
    (s.mainStep cfg env servo).tuner.gain cfg.tuner.kind =
      if s.writesGain cfg env servo = true then
        (cfg.tuner.gainCalls s.app.commands).foldl (DeviceGain.after cfg.tuner.kind) called
      else called := by
  intro next called
  have hcalled : (s.tuner.log (next.2.flatMap (s.tuner.deviceCalls env.answers))).gain
      cfg.tuner.kind = called := TunerController.gain_log _ _ _
  by_cases hwrites : s.writesGain cfg env servo = true
  · have htuner : (s.mainStep cfg env servo).tuner =
        (s.tuner.log (next.2.flatMap (s.tuner.deviceCalls env.answers))).log
          (cfg.tuner.gainCalls s.app.commands) := if_pos hwrites
    rw [if_pos hwrites, htuner, TunerController.gain_log, hcalled]
  · have htuner : (s.mainStep cfg env servo).tuner =
        s.tuner.log (next.2.flatMap (s.tuner.deviceCalls env.answers)) := if_neg hwrites
    rw [if_neg hwrites, htuner, hcalled]

/-- The automatic gain only ever raises a request. -/
theorem maybeAdjustAutoGain_pending (tuner : TunerConfig) (servo : Servo)
    (c : XdrCommandState) :
    (maybeAdjustAutoGain tuner servo c).pendingGain = c.pendingGain ∧
      ((maybeAdjustAutoGain tuner servo c).pendingAGC = false → c.pendingAGC = false) := by
  unfold maybeAdjustAutoGain
  split
  · exact ⟨rfl, id⟩
  · dsimp only
    split
    · exact ⟨rfl, fun h => by cases h⟩
    · exact ⟨rfl, fun h => by cases h⟩
    · exact ⟨rfl, id⟩

/-- If nothing is pending behind a step of the main loop, then nothing was
    before, but for a request that the step has taken. -/
theorem mainStep_gainPending {s : Station δ} (htaken : s.ChangeTaken) {env : Env} {servo : Servo}
    (h : (s.mainStep cfg env servo).gainPending = false) :
    s.app.commands.pendingGain = false ∧ s.app.commands.pendingAGC = false ∧
      (s.gainChanged = true → s.app.pc = .pollBandwidth) := by
  obtain ⟨hgain, hagc⟩ := Application.mainStep_gainRequests cfg.app env s.app
  obtain ⟨hauto, hautoAgc⟩ := maybeAdjustAutoGain_pending cfg.tuner servo
    (s.app.mainStep cfg.app env).1.commands
  have hflags : (s.app.mainStep cfg.app env).1.commands.pendingGain = false ∧
      (s.app.mainStep cfg.app env).1.commands.pendingAGC = false := by
    simp only [gainPending, mainStep, Bool.or_eq_false_iff] at h
    obtain ⟨⟨hg, ha⟩, -⟩ := h
    split at hg
    · next hread =>
      rw [if_pos hread] at ha
      exact ⟨hauto.symm.trans hg, hautoAgc ha⟩
    · next hread =>
      rw [if_neg hread] at ha
      exact ⟨hg, ha⟩
  have hchanged : (s.mainStep cfg env servo).gainChanged = false :=
    (Bool.or_eq_false_iff.mp h).2
  rw [hgain, hagc] at hflags
  -- two polls take a request, and remember it until the third has passed
  cases hpc : s.app.pc with
  | pollGain =>
    simp only [mainStep, hpc, reduceCtorEq, if_false] at hchanged hflags
    have hnot : s.gainChanged ≠ true := fun ht => by
      rcases htaken ht with h | h <;> rw [hpc] at h <;> cases h
    exact ⟨hchanged, hflags.2, fun ht => absurd ht hnot⟩
  | pollAgc =>
    simp only [mainStep, hpc, reduceCtorEq, if_false, Bool.or_eq_false_iff] at hchanged hflags
    exact ⟨hflags.1, hchanged.2, fun ht => by rw [hchanged.1] at ht; cases ht⟩
  | pollBandwidth =>
    simp only [hpc, reduceCtorEq, if_false] at hflags
    exact ⟨hflags.1, hflags.2, fun _ => rfl⟩
  | _ =>
    simp only [mainStep, hpc, reduceCtorEq, if_false] at hchanged hflags
    exact ⟨hflags.1, hflags.2, fun ht => by rw [hchanged] at ht; cases ht⟩

/-- A step that writes the gain leaves the requests made meanwhile. -/
theorem writesGain_gainPending {s : Station δ} (htaken : s.ChangeTaken) {env : Env}
    {servo : Servo} (hwrites : s.writesGain cfg env servo = true)
    (hgain : s.app.commands.pendingGain = false) (hagc : s.app.commands.pendingAGC = false) :
    (s.mainStep cfg env servo).gainPending = false := by
  obtain ⟨happlies, -⟩ := Bool.and_eq_true_iff.mp hwrites
  obtain ⟨hgain', hagc'⟩ := Application.mainStep_gainRequests cfg.app env s.app
  have hnot : s.app.pc ≠ .pollAgc → s.app.pc ≠ .pollBandwidth → s.gainChanged = false := by
    intro h h'
    cases hc : s.gainChanged with
    | false => rfl
    | true => exact absurd (htaken hc) (not_or.mpr ⟨h, h'⟩)
  -- the automatic gain acts on a block that was read, and such a step writes none
  have hread : ¬(s.app.pc = .read ∧ env.readOk = true) := by
    rintro ⟨hpc, hok⟩
    simp [appliesGain, hpc, Application.mainStep, hok] at happlies
  have hcommands : (s.mainStep cfg env servo).app.commands =
      (s.app.mainStep cfg.app env).1.commands := if_neg hread
  have hflags : (s.mainStep cfg env servo).app.commands.pendingGain = false ∧
      (s.mainStep cfg env servo).app.commands.pendingAGC = false := by
    rw [hcommands, hgain', hagc', hgain, hagc]
    exact ⟨ite_self _, ite_self _⟩
  have hchanged : (s.mainStep cfg env servo).gainChanged = false := by
    cases hpc : s.app.pc with
    | pollBandwidth => simp only [mainStep, hpc]
    | startTuner | read | control | compareFrequency freqHz | storeFrequency freqHz =>
      have hold := hnot (by rw [hpc]; exact Pc.noConfusion) (by rw [hpc]; exact Pc.noConfusion)
      simpa only [mainStep, hpc] using hold
    | _ => simp [appliesGain, hpc] at happlies
  unfold gainPending
  rw [hflags.1, hflags.2, hchanged]
  rfl

theorem mainStep_gainShown_iff {s : Station δ} (htaken : s.ChangeTaken)
    (hshown : s.ShowsGain cfg num) (env : Env) (servo : Servo) :
    s.GainShown cfg num outcomes (.app (.main env) servo) ↔
      s.WritesShown cfg num (.app (.main env) servo) := by
  have hgain := s.mainStep_gain cfg env servo
  show (s.mainStep cfg env servo).ShowsGain cfg num ↔ _
  by_cases hwrites : s.writesGain cfg env servo = true
  · have hconn : (s.mainStep cfg env servo).app.session.rtlConnected = true :=
      (Bool.and_eq_true_iff.mp hwrites).2
    have hpanel : (s.mainStep cfg env servo).panel = s.panel := rfl
    unfold ShowsGain
    rw [hgain, if_pos hwrites, TunerConfig.agrees_gainCalls_iff, hpanel]
    constructor
    · intro h _ hg ha
      exact h hconn (writesGain_gainPending cfg htaken hwrites hg ha)
    · intro h _ hpending
      obtain ⟨hg, ha, -⟩ := mainStep_gainPending cfg htaken hpending
      exact h hwrites hg ha
  · -- a step that writes no gain shows what was shown before
    refine iff_of_true ?_ fun h => absurd h hwrites
    intro hconn hpending
    have happlies : ¬s.appliesGain servo (s.app.mainStep cfg.app env).2 = true :=
      fun h => hwrites (Bool.and_eq_true_iff.mpr ⟨h, hconn⟩)
    -- a step that connects applies the gain as well
    have hcall : .connect ∉ (s.app.mainStep cfg.app env).2 := by
      intro hmem
      apply happlies
      rcases Application.mainStep_connect_pc hmem with hpc | hpc
      · simpa only [appliesGain, hpc] using List.contains_iff_mem.mpr hmem
      · simpa only [appliesGain, hpc] using List.contains_iff_mem.mpr hmem
    have hold := Application.mainStep_connected hcall hconn
    obtain ⟨hg, ha, hchanged⟩ := mainStep_gainPending cfg htaken hpending
    have hnot : s.gainChanged = false := by
      cases hc : s.gainChanged with
      | false => rfl
      | true => exact absurd (by simpa only [appliesGain, hchanged hc] using hc) happlies
    have hquiet : s.gainPending = false := by
      unfold gainPending
      rw [hg, ha, hnot]
      rfl
    rw [hgain, if_neg hwrites, after_deviceCalls hcall]
    exact hshown hold hquiet

theorem mainStep_changeTaken {s : Station δ} (htaken : s.ChangeTaken) (env : Env)
    (servo : Servo) : (s.mainStep cfg env servo).ChangeTaken := by
  intro hchanged
  cases hpc : s.app.pc with
  | pollGain => exact Or.inl (by simp only [mainStep, hpc, Application.mainStep])
  | pollAgc => exact Or.inr (by simp only [mainStep, hpc, Application.mainStep])
  | pollBandwidth => simp only [mainStep, hpc, Bool.false_eq_true] at hchanged
  | _ =>
    have hold : s.gainChanged = true := by simpa only [mainStep, hpc] using hchanged
    rcases htaken hold with h | h <;> rw [hpc] at h <;> cases h

/-! ### Clients -/

theorem store_gainRequests (c : XdrCommandState) (st : CommandStore) :
    ((c.store st).pendingGain = false → c.pendingGain = false) ∧
      ((c.store st).pendingAGC = false → c.pendingAGC = false) := by
  cases st with
  | pendingGain => exact ⟨fun h => (by cases h), id⟩
  | pendingAGC => exact ⟨id, fun h => (by cases h)⟩
  | _ => exact ⟨id, id⟩

/-- Clients raise requests, they take none. -/
theorem step_gainRequests (app : Application) {a : AppAction} (h : ∀ env, a ≠ .main env) :
    let next := (app.step cfg.app a).1
    (next.commands.pendingGain = false → app.commands.pendingGain = false) ∧
      (next.commands.pendingAGC = false → app.commands.pendingAGC = false) := by
  intro next
  have hcommands := app.step_commands cfg.app h
  show ((app.step cfg.app a).1.commands.pendingGain = false → _) ∧ _
  rw [hcommands]
  split
  · exact store_gainRequests _ _
  · exact ⟨id, id⟩

/-- A client leaves the gain and what is shown alone. -/
theorem client_showsGain {s : Station δ} (hshown : s.ShowsGain cfg num) {a : AppAction}
    (h : ∀ env, a ≠ .main env) :
    ({ s with app := (s.app.step cfg.app a).1 } : Station δ).ShowsGain cfg num := by
  intro hconn hpending
  have hsession := (s.app.step_own cfg.app h).session
  obtain ⟨hgain, hagc⟩ := step_gainRequests cfg s.app h
  simp only [gainPending, Bool.or_eq_false_iff] at hpending
  obtain ⟨⟨hg, ha⟩, hchanged⟩ := hpending
  have hquiet : s.gainPending = false := by
    unfold gainPending
    rw [hgain hg, hagc ha, hchanged]
    rfl
  rw [hsession] at hconn
  exact hshown hconn hquiet

/-! ### REST -/

/-- No control of REST requests a gain from the main loop. -/
theorem controlStep_requests (s : Station δ) (c : ControlCall) :
    (s.controlStep cfg num outcomes c).gainPending = s.gainPending ∧
      (s.controlStep cfg num outcomes c).app.session = s.app.session ∧
      (s.controlStep cfg num outcomes c).app.pc = s.app.pc := by
  cases c with
  | setDeemphasis mode | setBlendMode mode =>
    unfold controlStep RestBackend.control
    dsimp only
    by_cases hrange : mode < 0 ∨ 2 < mode
    · rw [if_pos hrange]
      exact ⟨rfl, rfl, rfl⟩
    · rw [if_neg hrange]
      refine ⟨?_, rfl, rfl⟩
      simp [gainPending, RestBackend.stores, controlWrites, hrange, XdrCommandState.write,
        XdrCommandState.store]
  | _ => exact ⟨rfl, rfl, rfl⟩

/-- The controls that have to do with the gain. -/
def isGainControl : ControlCall → Bool
  | .setGainDb _ | .setAutoGain _ | .setRtlAgc _ => true
  | _ => false

theorem controlStep_other (s : Station δ) {c : ControlCall} (h : isGainControl c = false) :
    (s.controlStep cfg num outcomes c).tuner.gain cfg.tuner.kind =
        s.tuner.gain cfg.tuner.kind ∧
      (s.controlStep cfg num outcomes c).panel.autoGain = s.panel.autoGain ∧
      (s.controlStep cfg num outcomes c).panel.gainDb = s.panel.gainDb := by
  have hcall : ∀ (t : TunerController) (call : DeviceCall),
      (∀ g, DeviceGain.after cfg.tuner.kind g call = g) →
        (t.log [call]).gain cfg.tuner.kind = t.gain cfg.tuner.kind ∧
        (t.sdrplayCall outcomes call).1.gain cfg.tuner.kind = t.gain cfg.tuner.kind := by
    intro t call hneutral
    constructor
    · rw [TunerController.gain_log]
      exact hneutral _
    · rw [TunerController.sdrplayCall_log, TunerController.gain_log]
      apply TunerController.foldl_eq_self
      intro c hc
      split at hc
      · rw [List.mem_singleton.mp hc]
        exact hneutral
      · cases hc
  cases c with
  | setGainDb db | setAutoGain on | setRtlAgc enable => cases h
  | setLnaState state => exact ⟨(hcall _ _ fun _ => rfl).2, rfl, rfl⟩
  | setAntenna index => exact ⟨(hcall _ _ fun _ => rfl).2, rfl, rfl⟩
  | setBiasTee enable => exact ⟨(hcall _ _ fun _ => rfl).2, rfl, rfl⟩
  | setPpm ppm => exact ⟨(hcall _ _ fun _ => rfl).1, rfl, rfl⟩
  | setDeemphasis mode | setBlendMode mode =>
    unfold controlStep RestBackend.control
    dsimp only
    split <;> exact ⟨rfl, rfl, rfl⟩
  | _ => exact ⟨rfl, rfl, rfl⟩

/-- A gain in dB is written and shown at once. -/
theorem setGainDb_agrees (s : Station δ) (db : Text) :
    ((s.controlStep cfg num outcomes (.setGainDb db)).tuner.gain cfg.tuner.kind).Agrees num
      (s.controlStep cfg num outcomes (.setGainDb db)).panel := by
  have htuner : (s.controlStep cfg num outcomes (.setGainDb db)).tuner =
      (s.tuner.log [.setGainMode true]).log
        [.setGain (num.tenths (num.clamp (num.strtod db)))] := rfl
  rw [htuner, TunerController.gain_log, TunerController.gain_log]
  refine ⟨?_, rfl⟩
  show (if cfg.tuner.kind = .sdrPlay then some true else some true) = some true
  exact ite_self _

/-- Automatic gain is written and shown at once, manual gain is the one last
    written. -/
theorem setAutoGain_agrees_iff (s : Station δ) (on : Bool) :
    ((s.controlStep cfg num outcomes (.setAutoGain on)).tuner.gain cfg.tuner.kind).Agrees num
        (s.controlStep cfg num outcomes (.setAutoGain on)).panel ↔
      (on = false →
        (s.tuner.gain cfg.tuner.kind).gainTenthsDb = some (num.tenths s.panel.gainDb)) := by
  have htuner : (s.controlStep cfg num outcomes (.setAutoGain on)).tuner =
      (s.tuner.log [.setGainMode !on]).log [.setAGC on] := rfl
  have hpanel : (s.controlStep cfg num outcomes (.setAutoGain on)).panel =
      { s.panel with autoGain := on } := rfl
  rw [htuner, hpanel, TunerController.gain_log, TunerController.gain_log]
  generalize s.tuner.gain cfg.tuner.kind = g
  by_cases hplay : cfg.tuner.kind = .sdrPlay
  · cases on <;> simp [DeviceGain.after, DeviceGain.Agrees, hplay]
  · cases on <;> simp [DeviceGain.after, DeviceGain.Agrees, hplay]

/-- On an SDRplay device `rtl_agc` replaces the gain mode. -/
theorem setRtlAgc_agrees_iff (s : Station δ) (enable : Bool)
    (hagrees : (s.tuner.gain cfg.tuner.kind).Agrees num s.panel) :
    ((s.controlStep cfg num outcomes (.setRtlAgc enable)).tuner.gain cfg.tuner.kind).Agrees num
        (s.controlStep cfg num outcomes (.setRtlAgc enable)).panel ↔
      (cfg.tuner.kind = .sdrPlay → enable = s.panel.autoGain) := by
  have htuner : (s.controlStep cfg num outcomes (.setRtlAgc enable)).tuner =
      s.tuner.log [.setAGC enable] := rfl
  have hpanel : (s.controlStep cfg num outcomes (.setRtlAgc enable)).panel =
      { s.panel with rtlAgc := enable } := rfl
  rw [htuner, hpanel, TunerController.gain_log]
  generalize s.tuner.gain cfg.tuner.kind = g at hagrees ⊢
  by_cases hplay : cfg.tuner.kind = .sdrPlay
  · unfold DeviceGain.Agrees at hagrees ⊢
    cases hauto : s.panel.autoGain <;> cases enable <;>
      simp_all [DeviceGain.after]
  · simpa [DeviceGain.after, hplay, DeviceGain.Agrees] using hagrees

theorem control_gainShown_iff {s : Station δ} (hshown : s.ShowsGain cfg num) (c : ControlCall) :
    s.GainShown cfg num outcomes (.control c) ↔ s.WritesShown cfg num (.control c) := by
  obtain ⟨hpending, hsession, -⟩ := s.controlStep_requests cfg num outcomes c
  show (s.controlStep cfg num outcomes c).ShowsGain cfg num ↔ _
  unfold ShowsGain
  rw [hpending, hsession]
  by_cases hgain : isGainControl c = true
  · cases c with
    | setGainDb db => exact iff_of_true (fun _ _ => s.setGainDb_agrees cfg num outcomes db) trivial
    | setAutoGain on =>
      simp only [s.setAutoGain_agrees_iff cfg num outcomes on]
      cases on with
      | true => exact iff_of_true (fun _ _ h => by cases h) trivial
      | false =>
        constructor
        · intro h hconn hquiet
          exact h hconn hquiet rfl
        · intro h hconn hquiet _
          exact h hconn hquiet
    | setRtlAgc enable =>
      constructor
      · intro h hconn hquiet
        exact (s.setRtlAgc_agrees_iff cfg num outcomes enable (hshown hconn hquiet)).mp
          (h hconn hquiet)
      · intro h hconn hquiet
        exact (s.setRtlAgc_agrees_iff cfg num outcomes enable (hshown hconn hquiet)).mpr
          (h hconn hquiet)
    | _ => cases hgain
  · have hother : isGainControl c = false := Bool.eq_false_iff.mpr hgain
    obtain ⟨htuner, hauto, hdb⟩ := s.controlStep_other cfg num outcomes hother
    refine iff_of_true ?_ ?_
    · intro hconn hquiet
      rw [DeviceGain.Agrees, htuner, hauto, hdb]
      exact hshown hconn hquiet
    · cases c with
      | setGainDb db | setAutoGain on | setRtlAgc enable => cases hother
      | _ => trivial

/-! ### Runs -/

theorem step_changeTaken {s : Station δ} (htaken : s.ChangeTaken) (a : StationAction) :
    (s.step cfg num outcomes a).ChangeTaken := by
  cases a with
  | control c =>
    obtain ⟨-, -, hpc⟩ := s.controlStep_requests cfg num outcomes c
    intro hchanged
    show (s.controlStep cfg num outcomes c).app.pc = _ ∨ _
    rw [hpc]
    exact htaken hchanged
  | app a servo =>
    by_cases hmain : ∃ env, a = .main env
    · obtain ⟨env, rfl⟩ := hmain
      exact mainStep_changeTaken cfg htaken env servo
    · have h : ∀ env, a ≠ .main env := fun env he => hmain ⟨env, he⟩
      have hstep : s.step cfg num outcomes (.app a servo) =
          { s with app := (s.app.step cfg.app a).1 } := by
        cases a with
        | main env => exact absurd rfl (h env)
        | _ => rfl
      rw [hstep]
      intro hchanged
      show (s.app.step cfg.app a).1.pc = _ ∨ (s.app.step cfg.app a).1.pc = _
      rw [(s.app.step_own cfg.app h).pc]
      exact htaken hchanged

/-- One step. -/
theorem gainShown_iff {s : Station δ} (htaken : s.ChangeTaken) (hshown : s.ShowsGain cfg num)
    (a : StationAction) : s.GainShown cfg num outcomes a ↔ s.WritesShown cfg num a := by
  cases a with
  | control c => exact control_gainShown_iff cfg num outcomes hshown c
  | app a servo =>
    cases a with
    | main env => exact mainStep_gainShown_iff cfg num outcomes htaken hshown env servo
    | _ => exact iff_of_true (client_showsGain cfg num hshown fun _ h => by cases h) trivial

/-- In every state of a run the status shows the gain in force exactly if
    whatever is written in the run is what the status shows anyway. -/
theorem status_shows_gain_iff (ofInt : Int → δ) (commands : XdrCommandState)
    (acts : List StationAction) :
    let M := stationMachine cfg num outcomes
    let start := Station.initial cfg ofInt commands
    M.Meets (GainShown cfg num outcomes) start acts ↔
      M.Meets (WritesShown cfg num) start acts := by
  intro M start
  have hstart : start.ChangeTaken ∧ start.ShowsGain cfg num := by
    constructor
    · intro hchanged
      cases hchanged
    · intro hconn
      cases hconn
  have hstep : ∀ (s : Station δ) (a : StationAction),
      s.ChangeTaken ∧ s.ShowsGain cfg num → s.GainShown cfg num outcomes a →
        (M.step s a).ChangeTaken ∧ (M.step s a).ShowsGain cfg num := by
    intro s a hinv hshown
    exact ⟨step_changeTaken cfg num outcomes hinv.1 a, hshown⟩
  have hiff : ∀ (s : Station δ) (a : StationAction),
      s.ChangeTaken ∧ s.ShowsGain cfg num →
        (s.GainShown cfg num outcomes a ↔ s.WritesShown cfg num a) := by
    intro s a hinv
    exact gainShown_iff cfg num outcomes hinv.1 hinv.2 a
  exact M.meets_iff_of_guarded_invariant hstep hiff hstart acts

/-- REST sets 30 dB, then retunes: the tuner is back at the 7 dB of AGC mode
    2, the status stays at 30 dB. -/
theorem retune_changes_gain :
    let cfg : StationConfig :=
      ⟨⟨.rtlSdr, -1, -1, 0, false, false, 18, true, 8, 0, false⟩, true, true, 1⟩
    let servo : Servo := ⟨false, false, false, false, false⟩
    let main : StationAction := .app (.main
      { tuneOk := true, answers := ⟨true, true, true, false⟩, readOk := true, running := true,
        center := none, adaptive := none }) servo
    let M := stationMachine cfg wholeGains fun _ _ => true
    let s := M.run (Station.initial cfg (· * 10) (.create 100000000 0 2 0 100 0 false))
      ([.app .fmdxStart servo, main, main, main, .control (.setGainDb "30".toList),
        .control (.setFrequencyHz 98000000)] ++ List.replicate 9 main)
    s.app.session.rtlConnected = true ∧ s.gainPending = false ∧
      (s.panel.autoGain = false ∧ wholeGains.tenths s.panel.gainDb = 300) ∧
      s.tuner.gain .rtlSdr = ⟨some true, some 70⟩ := by
  decide +kernel

end Station

end FmSdrTuner
