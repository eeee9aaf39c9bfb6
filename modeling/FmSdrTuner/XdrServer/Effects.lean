import FmSdrTuner.XdrServer.Commands

/-! # What a command does to the server

    Whatever the line, the effects of a command have one of six shapes: it
    does nothing, tells a callback, stores a value and tells a callback, asks
    a callback before it stores, stores the two sampling fields, or stores
    fields of the scan. The values are those the command normalises its
    argument to. The tuned frequency is the only value that the dialects
    restrict differently: `tunes` says which frequencies are let through.

    Main results: `processCommand_effects`, `processFmdxCommand_effects`,
    and the rule `CommandEffects.forall_mem` for properties of single
    effects. -/

namespace FmSdrTuner

/-! ### Normalised values -/

theorem clamp_of_mem {v lo hi : Int} (hlo : lo ≤ v) (hhi : v ≤ hi) : clamp v lo hi = v := by
  unfold clamp
  split <;> [omega; split <;> omega]

theorem clamp_bounds (v : Int) {lo hi : Int} (h : lo ≤ hi) :
    lo ≤ clamp v lo hi ∧ clamp v lo hi ≤ hi := by
  unfold clamp
  split
  · omega
  · split <;> omega

theorem stoiAll_bounds {arg : Text} {v : Int} (h : stoiAll arg = some v) :
    intMin ≤ v ∧ v ≤ intMax := by
  unfold stoiAll at h
  split at h
  · cases h
  · split at h
    · next hrange =>
      cases h
      exact ⟨hrange.1, hrange.2.1⟩
    · cases h

/-- A gain byte: one flag for the RF stage, one for the IF stage. -/
theorem parseTefCustomValue_range {arg : Text} {gain : Int}
    (h : parseTefCustomValue arg = some gain) :
    gain = 0 ∨ gain = 1 ∨ gain = 10 ∨ gain = 11 := by
  unfold parseTefCustomValue at h
  split at h
  · next a b =>
    split at h
    · next hflags =>
      cases h
      rcases hflags with ⟨rfl | rfl, rfl | rfl⟩ <;> decide
    · cases h
  · cases h

/-- The alignment is a multiple of 6 dB up to 36 dB. -/
theorem quantiseAlignment_steps (v : Int) :
    0 ≤ quantiseAlignment v ∧ quantiseAlignment v ≤ 36 ∧ quantiseAlignment v % 6 = 0 := by
  have hinner := clamp_bounds v (show (0 : Int) ≤ 36 by decide)
  have hvalue : quantiseAlignment v = (clamp v 0 36 + 3) / 6 * 6 := by
    unfold quantiseAlignment
    exact clamp_of_mem (by omega) (by omega)
  omega

/-! ### Shapes -/

/-- A field that is stored without asking, and the callback told after it. -/
inductive Setter (tunes : Nat → Prop) : ServerStore → Callback → Prop where
  | frequency {hz : Nat} (h : tunes hz) : Setter tunes (.frequency hz) (.freq hz)
  | volume {v : Int} (h : 0 ≤ v ∧ v ≤ 100) : Setter tunes (.volume v) (.volume v)
  | alignment {v : Int} (h : 0 ≤ v ∧ v ≤ 36 ∧ v % 6 = 0) : Setter tunes (.daa v) (.alignment v)
  | mode {v : Int} (h : 0 ≤ v ∧ v ≤ 1) : Setter tunes (.mode v) (.mode v)
  | deemphasis {v : Int} (h : 0 ≤ v ∧ v ≤ 2) : Setter tunes (.deemphasis v) (.deemphasis v)
  | bandwidth {v : Int} (h : intMin ≤ v ∧ v ≤ intMax) : Setter tunes (.bandwidth v) (.bandwidth v)
  | antenna {v : Int} (h : 0 ≤ v ∧ v ≤ 9) : Setter tunes (.antenna v) (.antenna v)
  | squelch {v : Int} (h : 0 ≤ v ∧ v ≤ 100) : Setter tunes (.squelch v) (.squelch v)
  | rotator {v : Int} (h : -1 ≤ v ∧ v ≤ 1) : Setter tunes (.rotator v) (.rotator v)
  | forceMono (mono : Bool) : Setter tunes (.forceMono mono) (.forceMono mono)
  | scanCancel : Setter tunes .scanCancelPending .stop

/-- A field that is stored if the callback asked before it accepts, and the
    answer of the callback. -/
inductive Requester (hooks : Hooks) : ServerStore → Callback → Bool → Prop where
  | gain {v : Int} (h : v = 0 ∨ v = 1 ∨ v = 10 ∨ v = 11) :
      Requester hooks (.gain v) (.gain v) (hooks.acceptsGain v)
  | agc {v : Int} (h : 0 ≤ v ∧ v ≤ 3) :
      Requester hooks (.agcMode v) (.agc v) (hooks.acceptsAgc v)

/-- A callback that is told something the server does not hold. -/
inductive Notice : Callback → Prop where
  | start : Notice .start
  | blendMode {v : Int} (h : 0 ≤ v ∧ v ≤ 2) : Notice (.blendMode v)

/-- A store of the scan configuration or of the scan requests. -/
inductive ScanStore : ServerStore → Prop where
  | startKHz {v : Int} (h : 64000 ≤ v ∧ v ≤ 108000) : ScanStore (.scanStartKHz v)
  | stopKHz {v : Int} (h : 64000 ≤ v ∧ v ≤ 108000) : ScanStore (.scanStopKHz v)
  | stepKHz {v : Int} (h : 5 ≤ v ∧ v ≤ 1000) : ScanStore (.scanStepKHz v)
  | bandwidthHz {v : Int} (h : 0 ≤ v ∧ v ≤ 400000) : ScanStore (.scanBandwidthHz v)
  | antenna {v : Int} (h : 0 ≤ v ∧ v ≤ 9) : ScanStore (.scanAntenna v)
  | continuous (b : Bool) : ScanStore (.scanContinuous b)
  | start : ScanStore .scanStartPending
  | cancel : ScanStore .scanCancelPending

/-- The effects that a command of either dialect can have. -/
inductive CommandEffects (hooks : Hooks) (tunes : Nat → Prop) : List Effect → Prop where
  | nothing : CommandEffects hooks tunes []
  | told {c : Callback} (h : Notice c) : CommandEffects hooks tunes (hooks.invoke c)
  | stored {w : ServerStore} {c : Callback} (h : Setter tunes w c) :
      CommandEffects hooks tunes (.store w :: hooks.invoke c)
  | asked {w : ServerStore} {c : Callback} {accepts : Bool} (h : Requester hooks w c accepts) :
      CommandEffects hooks tunes
        (if !hooks.installed c || accepts then hooks.invoke c ++ [.store w] else hooks.invoke c)
  | sampled {interval detector : Int} (hinterval : 0 ≤ interval ∧ interval ≤ 1000)
      (hdetector : 0 ≤ detector ∧ detector ≤ 1) :
      CommandEffects hooks tunes (.store (.samplingInterval interval) ::
        .store (.detector detector) :: hooks.invoke (.sampling interval detector))
  | scan {stores : List ServerStore} (h : ∀ w ∈ stores, ScanStore w) :
      CommandEffects hooks tunes (stores.map .store)

/-- What holds of the parts of every shape holds of all effects. -/
theorem CommandEffects.forall_mem {hooks : Hooks} {tunes : Nat → Prop} {effects : List Effect}
    {P : Effect → Prop} (h : CommandEffects hooks tunes effects)
    (hstored : ∀ {w c}, Setter tunes w c → P (.store w) ∧ P (.call c))
    (hasked : ∀ {w c accepts}, Requester hooks w c accepts → P (.store w) ∧ P (.call c))
    (hsampled : ∀ {interval detector : Int}, 0 ≤ interval ∧ interval ≤ 1000 →
      0 ≤ detector ∧ detector ≤ 1 → P (.store (.samplingInterval interval)) ∧
        P (.store (.detector detector)) ∧ P (.call (.sampling interval detector)))
    (htold : ∀ {c}, Notice c → P (.call c))
    (hscan : ∀ {w}, ScanStore w → P (.store w)) :
    ∀ e ∈ effects, P e := by
  have hinvoke : ∀ {c e}, e ∈ hooks.invoke c → P (.call c) → P e := by
    intro c e he hc
    rw [(Hooks.mem_invoke.mp he).2]
    exact hc
  intro e he
  cases h with
  | nothing => cases he
  | told hnotice => exact hinvoke he (htold hnotice)
  | stored hsetter =>
    rcases List.mem_cons.mp he with rfl | he
    · exact (hstored hsetter).1
    · exact hinvoke he (hstored hsetter).2
  | asked hrequester =>
    -- whatever the callback answers, it was asked
    split at he
    · rcases List.mem_append.mp he with he | he
      · exact hinvoke he (hasked hrequester).2
      · rw [List.mem_singleton.mp he]
        exact (hasked hrequester).1
    · exact hinvoke he (hasked hrequester).2
  | sampled hinterval hdetector =>
    obtain ⟨hfirst, hsecond, hcall⟩ := hsampled hinterval hdetector
    rcases List.mem_cons.mp he with rfl | he
    · exact hfirst
    · rcases List.mem_cons.mp he with rfl | he
      · exact hsecond
      · exact hinvoke he hcall
  | scan hstores =>
    obtain ⟨w, hw, rfl⟩ := List.mem_map.mp he
    exact hscan (hstores w hw)

section commands
variable {hooks : Hooks} {tunes : Nat → Prop} {arg : Text}

theorem CommandEffects.scanStore {w : ServerStore} (h : ScanStore w) :
    CommandEffects hooks tunes [.store w] := by
  have hall : ∀ w' ∈ [w], ScanStore w' := by
    intro w' hw'
    rw [List.mem_singleton.mp hw']
    exact h
  exact .scan hall

/-! ### XDR dialect -/

theorem xdrSetter_effects {name : Char} {norm : Int → Int} {store : Int → ServerStore}
    {callback : Int → Callback}
    (h : ∀ v, intMin ≤ v ∧ v ≤ intMax → Setter tunes (store (norm v)) (callback (norm v))) :
    CommandEffects hooks tunes (xdrSetter hooks name norm store callback arg).effects := by
  unfold xdrSetter
  split
  · exact .nothing
  · next v hparse => exact .stored (h v (stoiAll_bounds hparse))

theorem scanCommand_effects : CommandEffects hooks tunes (scanCommand arg).effects := by
  have hstart : ∀ b, ∀ w ∈ [ServerStore.scanContinuous b, .scanStartPending], ScanStore w := by
    intro b w hw
    rcases List.mem_pair.mp hw with rfl | rfl
    · exact .continuous b
    · exact .start
  unfold scanCommand
  split
  · exact .scan (hstart false)
  · exact .scan (hstart true)
  · split
    · exact .nothing
    · next v _ =>
      split
      · exact .scanStore (.startKHz (clamp_bounds v (by decide)))
      · exact .scanStore (.stopKHz (clamp_bounds v (by decide)))
      · exact .scanStore (.stepKHz (clamp_bounds v (by decide)))
      · exact .scanStore (.bandwidthHz (clamp_bounds v (by decide)))
      · exact .scanStore (.antenna (clamp_bounds v (by decide)))
      · exact .nothing

theorem tuneCommand_effects :
    CommandEffects hooks (isValidFmBroadcastFreqHz · = true) (tuneCommand hooks arg).effects := by
  unfold tuneCommand
  split
  · exact .nothing
  · split
    · next hband => exact .stored (.frequency hband)
    · exact .nothing

theorem gainCommand_effects (s : XDRServer) :
    CommandEffects hooks tunes (gainCommand s hooks arg).effects := by
  unfold gainCommand
  split
  · exact .nothing
  · next gain hparse =>
    rw [apply_ite CommandResult.effects]
    exact .asked (.gain (parseTefCustomValue_range hparse))

theorem agcCommand_effects (s : XDRServer) :
    CommandEffects hooks tunes (agcCommand s hooks arg).effects := by
  unfold agcCommand
  split
  · exact .nothing
  · next parsed _ =>
    dsimp only
    rw [apply_ite CommandResult.effects]
    exact .asked (.agc (clamp_bounds parsed (by decide)))

theorem blendCommand_effects : CommandEffects hooks tunes (blendCommand hooks arg).effects := by
  unfold blendCommand
  split
  · split
    · exact .nothing
    · next parsed _ => exact .told (.blendMode (clamp_bounds parsed (by decide)))
  · exact .nothing

theorem samplingCommand_effects (s : XDRServer) :
    CommandEffects hooks tunes (samplingCommand s hooks arg).effects := by
  unfold samplingCommand
  split
  · exact .nothing
  · dsimp only
    split
    · exact .nothing
    · next p _ => exact .sampled (clamp_bounds p.1 (by decide)) (clamp_bounds p.2 (by decide))

theorem forceMonoCommand_effects :
    CommandEffects hooks tunes (forceMonoCommand hooks arg).effects := by
  unfold forceMonoCommand
  split
  · exact .nothing
  · exact .stored (.forceMono _)

/-- The XDR dialect tunes to frequencies of the FM broadcast band only. -/
theorem processCommand_effects (s : XDRServer) (hooks : Hooks) (cmd : Text)
    (authenticated guestSession : Bool) :
    CommandEffects hooks (isValidFmBroadcastFreqHz · = true)
      (processCommand s hooks cmd authenticated guestSession).effects := by
  unfold processCommand
  split
  · exact .scanStore .cancel
  · split
    · exact .nothing
    · split
      case h_1 => exact .told .start
      case h_2 => exact .stored .scanCancel
      case h_4 => exact scanCommand_effects
      case h_5 => exact tuneCommand_effects
      case h_6 => exact xdrSetter_effects fun v _ => .volume (clamp_bounds v (by decide))
      case h_7 => exact xdrSetter_effects fun v _ => .alignment (quantiseAlignment_steps v)
      case h_8 => exact gainCommand_effects s
      case h_9 => exact agcCommand_effects s
      case h_10 => exact xdrSetter_effects fun v _ => .mode (clamp_bounds v (by decide))
      case h_11 => exact xdrSetter_effects fun v _ => .deemphasis (clamp_bounds v (by decide))
      case h_12 => exact blendCommand_effects
      case h_13 => exact xdrSetter_effects fun _ hv => .bandwidth hv
      case h_14 => exact xdrSetter_effects fun v _ => .antenna (clamp_bounds v (by decide))
      case h_15 => exact xdrSetter_effects fun v _ => .squelch (clamp_bounds v (by decide))
      case h_16 => exact xdrSetter_effects fun v _ => .rotator (clamp_bounds v (by decide))
      case h_17 => exact samplingCommand_effects s
      case h_18 => exact forceMonoCommand_effects
      case h_3 | h_19 | h_20 | h_21 => exact .nothing

/-! ### FM-DX dialect -/

theorem fmdxSetter_effects {norm : Int → Int} {store : Int → ServerStore}
    {callback : Int → Callback}
    (h : ∀ v, intMin ≤ v ∧ v ≤ intMax → Setter tunes (store (norm v)) (callback (norm v))) :
    CommandEffects hooks tunes (fmdxSetter hooks norm store callback arg).effects := by
  unfold fmdxSetter
  split
  · exact .nothing
  · next v hparse => exact .stored (h v (stoiAll_bounds hparse))

theorem fmdxTuneCommand_effects (h : ∀ hz, parseFrequencyHz arg = some hz → tunes hz) :
    CommandEffects hooks tunes (fmdxTuneCommand hooks arg).effects := by
  unfold fmdxTuneCommand
  split
  · exact .nothing
  · next freqHz hparse => exact .stored (.frequency (h freqHz hparse))

theorem fmdxAgcCommand_effects :
    CommandEffects hooks tunes (fmdxAgcCommand hooks arg).effects := by
  unfold fmdxAgcCommand
  split
  · exact .nothing
  · next parsed _ =>
    -- this dialect knows no mode 3
    have hbounds := clamp_bounds parsed (show (0 : Int) ≤ 2 by decide)
    dsimp only
    rw [apply_ite CommandResult.effects]
    exact .asked (.agc ⟨hbounds.1, by omega⟩)

theorem fmdxForceMonoCommand_effects :
    CommandEffects hooks tunes (fmdxForceMonoCommand hooks arg).effects := by
  unfold fmdxForceMonoCommand
  split
  · exact .nothing
  · exact .stored (.forceMono _)

theorem fmdxBlendCommand_effects :
    CommandEffects hooks tunes (fmdxBlendCommand hooks arg).effects := by
  unfold fmdxBlendCommand
  split
  · split
    · exact .nothing
    · next parsed _ => exact .told (.blendMode (clamp_bounds parsed (by decide)))
  · exact .nothing

/-- The FM-DX dialect tunes to whatever frequency its line names. -/
theorem processFmdxCommand_effects (s : XDRServer) (hooks : Hooks) (cmd : Text) :
    CommandEffects hooks (fun hz => ∃ arg, cmd = 'T' :: arg ∧ parseFrequencyHz arg = some hz)
      (processFmdxCommand s hooks cmd).effects := by
  unfold processFmdxCommand
  split
  case h_2 arg => exact fmdxTuneCommand_effects fun _ hparse => ⟨arg, rfl, hparse⟩
  case h_3 => exact fmdxSetter_effects fun _ _ => .volume (clamp_bounds _ (by decide))
  case h_4 => exact fmdxAgcCommand_effects
  case h_6 => exact fmdxForceMonoCommand_effects
  case h_7 => exact fmdxSetter_effects fun _ hv => .bandwidth hv
  case h_8 => exact fmdxBlendCommand_effects
  case h_9 => exact fmdxSetter_effects fun v _ => .deemphasis (clamp_bounds v (by decide))
  all_goals exact .nothing

end commands

end FmSdrTuner
