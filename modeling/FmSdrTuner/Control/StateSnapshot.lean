import FmSdrTuner.Control.StateMirror

/-! # The snapshot in a run

    The copies of a setting settle to the same value as long as every
    writer other than a command writes what the server's copy settles to.
    The frequencies agree, or the newer one is on its way, as long as no
    retune is given up while they differ. -/

namespace FmSdrTuner

/-! ### Writers other than commands -/

/-- The store of `maybeAdjustAutoGain`, if it makes one. -/
def TunerConfig.autoGainWrites (cfg : TunerConfig) (servo : Servo) (c : XdrCommandState) :
    List Write :=
  if cfg.useSdrppGainStrategy || decide (0 ≤ cfg.gain) || cfg.isImsAgcEnabled c then []
  else
    let current := clamp c.requestedAGCMode 0 3
    match decideAutoGainStep current servo with
    | .down => [.command (.requestedAGCMode (current + 1))]
    | .up => [.command (.requestedAGCMode (current - 1))]
    | .none => []

theorem TunerConfig.command_autoGain (cfg : TunerConfig) (servo : Servo) (c : XdrCommandState)
    (m : Setting) :
    m.command (maybeAdjustAutoGain cfg servo c) =
      settle m.commandWrite (m.command c) (cfg.autoGainWrites servo c) := by
  unfold maybeAdjustAutoGain autoGainWrites
  split
  · rfl
  · dsimp only
    cases decideAutoGainStep (clamp c.requestedAGCMode 0 3) servo <;> cases m <;> rfl

/-- What the main loop itself writes into `XdrCommandState`. -/
def Application.ownWrites (app : Application) : List Write :=
  match app.pc with
  | .scanBandwidth => [.command (.requestedBandwidthHz app.scanEngine.config.bandwidthHz)]
  | .restoreBandwidth _ bandwidthHz _ => [.command (.requestedBandwidthHz bandwidthHz)]
  | .adaptBandwidth bandwidthHz => [.command (.requestedBandwidthHz bandwidthHz)]
  | _ => []

/-- The main loop and the settings. -/
theorem Application.mainStep_setting (cfg : AppConfig) (env : Env) (app : Application)
    (m : Setting) :
    m.server (app.mainStep cfg env).1.server = m.server app.server ∧
      m.command (app.mainStep cfg env).1.commands =
        settle m.commandWrite (m.command app.commands) app.ownWrites := by
  cases hpc : app.pc with
  | scanConfig currentFreqHz fields config =>
    cases fields <;> simp [mainStep, ownWrites, hpc]
  | scanBandwidth | restoreBandwidth freqHz bandwidthHz caller | adaptBandwidth bandwidthHz =>
    simp only [mainStep, ownWrites, hpc]
    exact ⟨trivial, by cases m <;> rfl⟩
  | _ =>
    simp only [mainStep, ownWrites, hpc, settle_nil]
    first
      | exact ⟨trivial, trivial⟩
      | exact ⟨trivial, by cases m <;> rfl⟩
      | exact ⟨by cases m <;> rfl, trivial⟩
      | (repeat' split) <;> cases m <;> exact ⟨rfl, rfl⟩

namespace Station
variable {δ : Type} (cfg : StationConfig) (num : GainNumbers δ) (outcomes : Outcomes)

/-- What a step writes into `XdrCommandState` other than for a command. -/
def otherWrites (s : Station δ) : StationAction → List Write
  | .app (.main env) servo =>
      s.app.ownWrites ++
        if s.app.pc = .read ∧ env.readOk = true then
          cfg.tuner.autoGainWrites servo s.app.commands
        else []
  | .app .restWrite _ => s.app.restWrites.head?.toList
  | .control c => controlWrites c
  | _ => []

end Station

/-- The value that the copies of a setting settle to, as the server's copy
    does once the command under way is carried out. -/
def Application.inForce (app : Application) (m : Setting) : Int :=
  settle m.serverWrite (m.server app.server) app.clientWrites

/-- A write of the command state alone does no harm: it writes what the
    server has, or the command under way overwrites it. -/
def Application.harmless (app : Application) (m : Setting) (w : Write) : Bool :=
  overwrites m.commandWrite app.clientWrites ||
    (m.commandWrite w).all fun v => v == app.inForce m

namespace Station
variable {δ : Type} (cfg : StationConfig) (num : GainNumbers δ) (outcomes : Outcomes)

/-- Whatever is written other than for a command is harmless. -/
def WritesInForce (s : Station δ) (a : StationAction) : Prop :=
  ∀ m ∈ Setting.all, ∀ w ∈ s.otherWrites cfg a, s.app.harmless m w = true

/-- Does the step leave a frequency request without telling the server? A
    retune may fail, and the server does not take a frequency of zero. -/
def givesUp (s : Station δ) : StationAction → Bool
  | .app (.main env) _ =>
      match s.app.pc with
      | .tune _ => !env.tuneOk
      | .compareFrequency freqHz => freqHz == 0
      | _ => false
  | _ => false

/-- A request that is left is one that the server knows, or another follows. -/
def LeavesKnown (s : Station δ) (a : StationAction) : Prop :=
  s.givesUp a = true → s.app.raised frequencySignal ∨
    s.app.server.frequency / 1000 = s.app.commands.requestedFrequencyHz / 1000

instance (s : Station δ) (a : StationAction) : Decidable (s.WritesInForce cfg a) :=
  inferInstanceAs (Decidable (∀ m ∈ Setting.all, ∀ w ∈ s.otherWrites cfg a, _ = true))

instance (s : Station δ) (a : StationAction) : Decidable (s.LeavesKnown a) :=
  inferInstanceAs (Decidable (_ → _ ∨ _))

end Station

/-! ### The invariant -/

/-- The main loop is carrying out the request for a frequency, or the server
    has the frequency already. -/
def KnownAt (requestedHz serverHz : Nat) : Pc → Prop
  | .loadFrequency | .restoreFrequencyPending _ _ => True
  | .tune freqHz | .compareFrequency freqHz | .clearPi freqHz | .storeFrequency freqHz =>
      freqHz = requestedHz
  | _ => serverHz / 1000 = requestedHz / 1000

/-- The server knows the frequency requested, or it will. -/
def FrequencyKnown (app : Application) : Prop :=
  app.raised frequencySignal ∨
    KnownAt app.commands.requestedFrequencyHz app.server.frequency app.pc

structure Mirrored (app : Application) : Prop where
  settings : ∀ m : Setting, SettleEqual m.serverWrite m.commandWrite (m.server app.server)
    (m.command app.commands) app.clientWrites
  /-- REST does not write to the server. -/
  rest : ∀ w ∈ app.restWrites, isFrequencyStore w = false ∧
    ∀ m : Setting, m.serverWrite w = none
  stored : Signalled isFrequencyStore (.command .pendingFrequency) app.clientWrites
  announced : app.Announced frequencySignal
  frequency : FrequencyKnown app

/-- A write to the command state only. -/
theorem Mirrored.settings_foreign {app : Application} (h : Mirrored app) (m : Setting)
    (ws : List Write)
    (hothers : ∀ w ∈ ws, app.harmless m w = true) :
    SettleEqual m.serverWrite m.commandWrite (m.server app.server)
      (settle m.commandWrite (m.command app.commands) ws) app.clientWrites := by
  apply (h.settings m).foreign
  cases hover : overwrites m.commandWrite app.clientWrites with
  | true => exact Or.inl rfl
  | false =>
    refine Or.inr fun w hw v hv => ?_
    have hall := hothers w hw
    rw [Application.harmless, hover, hv] at hall
    have hvalue : v = app.inForce m := by simpa using hall
    exact hvalue

/-! ### The main loop -/

/-- The main loop takes a frequency request only to carry it out. -/
theorem mainStep_pendingFrequency (cfg : AppConfig) (env : Env) {app : Application}
    (h : app.commands.pendingFrequency = true) :
    (app.mainStep cfg env).1.commands.pendingFrequency = true ∨
      (app.mainStep cfg env).1.pc = .loadFrequency := by
  cases hpc : app.pc with
  | pollFrequency =>
    simp only [Application.mainStep, hpc]
    split
    · exact Or.inr rfl
    · exact Or.inl h
  | scanConfig currentFreqHz fields config =>
    cases fields <;> exact Or.inl (by simp only [Application.mainStep, hpc, h])
  | restoreFrequencyPending freqHz caller =>
    exact Or.inl (by simp only [Application.mainStep, hpc])
  | _ =>
    refine Or.inl ?_
    simp only [Application.mainStep, hpc]
    first
      | exact h
      | (repeat' split) <;> exact h

theorem mainStep_frequencyRaised (cfg : AppConfig) (env : Env) {app : Application}
    (h : app.raised frequencySignal) :
    (app.mainStep cfg env).1.raised frequencySignal ∨
      (app.mainStep cfg env).1.pc = .loadFrequency := by
  obtain ⟨hclient, hrest⟩ := Application.mainStep_writes cfg app env
  unfold Application.raised
  rw [hclient, hrest]
  rcases h with hflag | hwrites
  · rcases mainStep_pendingFrequency cfg env hflag with hpending | hload
    · exact Or.inl (Or.inl hpending)
    · exact Or.inr hload
  · exact Or.inl (Or.inr hwrites)

/-- A request that is announced is carried out later. -/
theorem frequencyKnown_of_raised (cfg : AppConfig) (env : Env) {app : Application}
    (h : app.raised frequencySignal) : FrequencyKnown (app.mainStep cfg env).1 := by
  rcases mainStep_frequencyRaised cfg env h with hraised | hload
  · exact Or.inl hraised
  · refine Or.inr ?_
    rw [hload]
    trivial

/-- One step of the main loop, from where no request is announced. -/
theorem KnownAt.mainStep {cfg : AppConfig} {env : Env} {app : Application}
    (h : KnownAt app.commands.requestedFrequencyHz app.server.frequency app.pc)
    (htune : ∀ freqHz, app.pc = .tune freqHz → env.tuneOk = false →
      app.raised frequencySignal ∨
        app.server.frequency / 1000 = app.commands.requestedFrequencyHz / 1000)
    (hzero : app.pc = .compareFrequency 0 → app.raised frequencySignal ∨
      app.server.frequency / 1000 = app.commands.requestedFrequencyHz / 1000) :
    FrequencyKnown (app.mainStep cfg env).1 := by
  cases hpc : app.pc with
  | loadFrequency =>
    simp only [FrequencyKnown, Application.mainStep, hpc]
    exact Or.inr rfl
  | restoreFrequency freqHz caller =>
    simp only [FrequencyKnown, Application.mainStep, hpc]
    exact Or.inr trivial
  | restoreFrequencyPending freqHz caller =>
    simp only [FrequencyKnown, Application.mainStep, hpc]
    exact Or.inl (Or.inl rfl)
  | tune freqHz =>
    rw [hpc] at h
    cases hok : env.tuneOk with
    | true =>
      simp only [FrequencyKnown, Application.mainStep, hpc, hok, if_true]
      exact Or.inr h
    | false =>
      -- the tuner refuses, and the server is told nothing
      rcases htune freqHz hpc hok with hr | hequal
      · exact frequencyKnown_of_raised cfg env hr
      · simp only [FrequencyKnown, Application.mainStep, hpc, hok, Bool.false_eq_true, if_false]
        exact Or.inr hequal
  | compareFrequency freqHz =>
    rw [hpc] at h
    by_cases hz : freqHz = 0
    · -- 0 is never stored in the server
      rw [hz] at hpc
      rcases hzero hpc with hr | hequal
      · exact frequencyKnown_of_raised cfg env hr
      · simp only [FrequencyKnown, Application.mainStep, hpc, if_true]
        exact Or.inr hequal
    · simp only [FrequencyKnown, Application.mainStep, hpc, if_neg hz]
      split
      · exact Or.inr h
      · exact Or.inr h
  | clearPi freqHz =>
    rw [hpc] at h
    simp only [FrequencyKnown, Application.mainStep, hpc]
    exact Or.inr h
  | storeFrequency freqHz =>
    rw [hpc] at h
    obtain rfl : freqHz = app.commands.requestedFrequencyHz := h
    simp only [FrequencyKnown, Application.mainStep, hpc]
    exact Or.inr rfl
  | pollFrequency =>
    rw [hpc] at h
    simp only [FrequencyKnown, Application.mainStep, hpc]
    split
    · cases app.commands.pendingFrequency with
      | true => exact Or.inr trivial
      | false => exact Or.inr h
    · exact Or.inr h
  | scanConfig currentFreqHz fields config =>
    rw [hpc] at h
    cases fields with
    | nil =>
      simp only [FrequencyKnown, Application.mainStep, hpc]
      split <;> exact Or.inr h
    | cons field fields =>
      simp only [FrequencyKnown, Application.mainStep, hpc]
      exact Or.inr h
  | restoreTune freqHz caller =>
    rw [hpc] at h
    simp only [FrequencyKnown, Application.mainStep, hpc]
    split <;> cases caller <;> exact Or.inr h
  | _ =>
    rw [hpc] at h
    simp only [FrequencyKnown, Application.mainStep, hpc]
    first
      | exact Or.inr h
      | (repeat' split) <;> exact Or.inr h

theorem mainStep_frequencyKnown {cfg : AppConfig} {env : Env} {app : Application}
    (h : FrequencyKnown app)
    (htune : ∀ freqHz, app.pc = .tune freqHz → env.tuneOk = false →
      app.raised frequencySignal ∨
        app.server.frequency / 1000 = app.commands.requestedFrequencyHz / 1000)
    (hzero : app.pc = .compareFrequency 0 → app.raised frequencySignal ∨
      app.server.frequency / 1000 = app.commands.requestedFrequencyHz / 1000) :
    FrequencyKnown (app.mainStep cfg env).1 := by
  rcases h with hraised | hknown
  · exact frequencyKnown_of_raised cfg env hraised
  · exact hknown.mainStep htune hzero

/-- The automatic gain has nothing to do with the frequency. -/
theorem maybeAdjustAutoGain_frequency (tuner : TunerConfig) (servo : Servo)
    (c : XdrCommandState) :
    (maybeAdjustAutoGain tuner servo c).requestedFrequencyHz = c.requestedFrequencyHz ∧
      (maybeAdjustAutoGain tuner servo c).pendingFrequency = c.pendingFrequency := by
  unfold maybeAdjustAutoGain
  split
  · exact ⟨rfl, rfl⟩
  · dsimp only
    split <;> exact ⟨rfl, rfl⟩

theorem FrequencyKnown.of_commands {app : Application} (h : FrequencyKnown app)
    {c : XdrCommandState} (hvalue : c.requestedFrequencyHz = app.commands.requestedFrequencyHz)
    (hflag : c.pendingFrequency = app.commands.pendingFrequency) :
    FrequencyKnown { app with commands := c } := by
  rcases h with (hraised | hwrites) | hknown
  · exact Or.inl (Or.inl (hflag.trans hraised))
  · exact Or.inl (Or.inr hwrites)
  · refine Or.inr ?_
    show KnownAt c.requestedFrequencyHz _ _
    rw [hvalue]
    exact hknown

/-! ### Clients -/

section clients
variable {cfg : AppConfig} {app : Application}

/-- The command that a client starts writes both copies. -/
theorem startedEffects_writesBoth (cfg : AppConfig) (app : Application) (a : AppAction) :
    WritesBoth (commandWrites cfg.facade (app.startedEffects cfg a)) := by
  cases a with
  | xdrLine cmd guestSession =>
    simp only [Application.startedEffects]
    split
    · exact (processCommand_effects _ _ _ _ _).writesBoth
    · exact writesBoth_nil
  | fmdxLine cmd =>
    simp only [Application.startedEffects]
    split
    · exact (processFmdxCommand_effects _ _ _).writesBoth
    · exact writesBoth_nil
  | _ => exact writesBoth_nil

/-- REST writes to the command state only. -/
theorem controlWrites_rest (c : ControlCall) :
    ∀ w ∈ controlWrites c, isFrequencyStore w = false ∧ ∀ m : Setting, m.serverWrite w = none := by
  intro w hw
  have hcommand : (∃ st, w = .command st) ∨ w = .startRequest ∨ w = .stopRequest := by
    cases c <;> simp only [controlWrites] at hw
    all_goals try split at hw
    all_goals simp only [List.mem_cons, List.not_mem_nil, or_false] at hw
    all_goals rcases hw with rfl | rfl
    all_goals simp
  rcases hcommand with ⟨st, rfl⟩ | rfl | rfl
  · exact ⟨rfl, fun m => by cases m <;> rfl⟩
  · exact ⟨rfl, fun m => by cases m <;> rfl⟩
  · exact ⟨rfl, fun m => by cases m <;> rfl⟩

theorem Application.write_commands (s : Application) (w : Write) :
    (s.write w).commands = s.commands.write w := by
  cases w <;> rfl

theorem Application.write_serverFrequency (s : Application) {w : Write}
    (h : isFrequencyStore w = false) : (s.write w).server.frequency = s.server.frequency := by
  cases w with
  | server st => cases st <;> first | rfl | cases h
  | _ => rfl

/-- The settings behind a step of a client. -/
theorem Mirrored.settings_client (h : Mirrored app) {a : AppAction} (hmain : ∀ env, a ≠ .main env)
    (m : Setting)
    (hrest : a = .restWrite → ∀ w ∈ app.restWrites.head?.toList, app.harmless m w = true) :
    SettleEqual m.serverWrite m.commandWrite (m.server (app.step cfg a).1.server)
      (m.command (app.step cfg a).1.commands) (app.step cfg a).1.clientWrites := by
  have hsettings := h.settings m
  -- a command that starts is behind no other
  have hstarted : app.clientWrites = [] → SettleEqual m.serverWrite m.commandWrite
      (m.server app.server) (m.command app.commands)
      (commandWrites cfg.facade (app.startedEffects cfg a)) := by
    intro hfree
    rw [hfree] at hsettings
    exact hsettings.enter ((startedEffects_writesBoth cfg app a).matched m)
  cases a with
  | main env => exact absurd rfl (hmain env)
  | xdrLine cmd guestSession =>
    cases cmd with
    | nil => cases m <;> exact hsettings
    | cons c cmd =>
      simp only [Application.step]
      split
      · next hfree => exact hstarted (List.isEmpty_iff.mp hfree)
      · exact hsettings
  | fmdxLine cmd =>
    simp only [Application.step]
    split
    · next hfree => exact hstarted (List.isEmpty_iff.mp hfree)
    · exact hsettings
  | clientWrite =>
    simp only [Application.step, Application.clientStep]
    split
    · exact hsettings
    · next w ws hws =>
      rw [hws] at hsettings
      rw [m.server_write, Application.write_commands, m.command_write,
        (Application.write_writes _ w).1]
      exact hsettings.write
  | restWrite =>
    simp only [Application.step, Application.restStep]
    split
    · exact hsettings
    · next w ws hws =>
      have hserver := (h.rest w (hws ▸ List.mem_cons_self)).2 m
      rw [hws] at hrest
      rw [m.server_write, Application.write_commands, m.command_write,
        (Application.write_writes _ w).1, hserver]
      exact h.settings_foreign m [w] (hrest rfl)
  | rest controls params =>
    simp only [Application.step]
    split <;> exact hsettings
  | rdsGroup group nowMs =>
    obtain ⟨pi, queue, next, heq⟩ := app.server.updateRDS_frame group nowMs
    simp only [Application.step, heq]
    cases m <;> exact hsettings
  | fmdxStart | fmdxStop | xdrDisconnect => cases m <;> exact hsettings

variable (cfg) in
/-- A client stores a frequency in the server only to request it as well. -/
theorem Mirrored.serverFrequency_client (h : Mirrored app) {a : AppAction}
    (hmain : ∀ env, a ≠ .main env) :
    (app.step cfg a).1.server.frequency = app.server.frequency ∨
      (app.step cfg a).1.raised frequencySignal := by
  have hclient := app.step_client cfg hmain
  generalize (app.step cfg a).1 = s' at hclient
  cases hclient with
  | direct w hd =>
    refine Or.inl ?_
    cases a with
    | xdrLine cmd guestSession => cases cmd <;> cases hd; rfl
    | fmdxStart | fmdxStop | xdrDisconnect => cases hd; rfl
    | _ => cases hd
  | client w ws hws =>
    have hstored := h.stored
    rw [hws] at hstored
    cases hfrequency : isFrequencyStore w with
    | true =>
      exact Or.inr (Application.raised.write (s := { app with clientWrites := ws })
        (Or.inr (Or.inl (hstored.1 hfrequency))) w)
    | false => exact Or.inl (Application.write_serverFrequency _ hfrequency)
  | rest w ws hws =>
    have hfrequency := (h.rest w (hws ▸ List.mem_cons_self)).1
    exact Or.inl (Application.write_serverFrequency _ hfrequency)
  | group group nowMs =>
    obtain ⟨pi, queue, next, heq⟩ := app.server.updateRDS_frame group nowMs
    rw [heq]
    exact Or.inl rfl
  | line | request | idle => exact Or.inl rfl

theorem Mirrored.frequency_client (h : Mirrored app) {a : AppAction}
    (hmain : ∀ env, a ≠ .main env) : FrequencyKnown (app.step cfg a).1 := by
  -- a request that is raised stays so until the main loop takes it
  rcases h.frequency with hraised | hknown
  · exact Or.inl (hraised.step hmain)
  · rcases h.serverFrequency_client cfg hmain with hserver | hraised
    · rcases h.announced.value_step cfg hmain with hvalue | hraised
      · refine Or.inr ?_
        have hrequested : (app.step cfg a).1.commands.requestedFrequencyHz =
            app.commands.requestedFrequencyHz := hvalue
        rw [hrequested, hserver, (app.step_own cfg hmain).pc]
        exact hknown
      · exact Or.inl hraised
    · exact Or.inl hraised

theorem Mirrored.client (h : Mirrored app) {a : AppAction} (hmain : ∀ env, a ≠ .main env)
    (hrest : ∀ m : Setting, a = .restWrite → ∀ w ∈ app.restWrites.head?.toList,
      app.harmless m w = true) :
    Mirrored (app.step cfg a).1 := by
  constructor
  · exact fun m => h.settings_client hmain m (hrest m)
  · have hclient := app.step_client cfg hmain
    generalize (app.step cfg a).1 = s' at hclient
    cases hclient with
    | direct w =>
      rw [(app.write_writes w).2]
      exact h.rest
    | client w ws hws =>
      rw [(Application.write_writes _ w).2]
      exact h.rest
    | rest w ws hws =>
      rw [(Application.write_writes _ w).2]
      exact fun w' hw' => h.rest w' (hws ▸ List.mem_cons_of_mem _ hw')
    | request controls params =>
      intro w hw
      obtain ⟨c, -, hmem⟩ := List.mem_flatMap.mp hw
      exact controlWrites_rest c w hmem
    | line | group | idle => exact h.rest
  · have hclient := app.step_client cfg hmain
    generalize (app.step cfg a).1 = s' at hclient
    cases hclient with
    | direct w =>
      rw [(app.write_writes w).1]
      exact h.stored
    | client w ws hws =>
      have hstored := h.stored
      rw [hws] at hstored
      rw [(Application.write_writes _ w).1]
      exact hstored.2
    | rest w ws hws =>
      rw [(Application.write_writes _ w).1]
      exact h.stored
    | line => exact (startedEffects_writesBoth cfg app a).announced
    | request | group | idle => exact h.stored
  · exact h.announced.step a
  · exact h.frequency_client hmain

end clients

/-! ### Runs -/

namespace Station
variable {δ : Type} (cfg : StationConfig) (num : GainNumbers δ) (outcomes : Outcomes)

theorem mainStep_mirrored {s : Station δ} (h : Mirrored s.app) {env : Env} {servo : Servo}
    (hwrites : s.WritesInForce cfg (.app (.main env) servo))
    (hleaves : s.LeavesKnown (.app (.main env) servo)) :
    Mirrored (s.mainStep cfg env servo).app := by
  obtain ⟨hclient, hrest⟩ := Application.mainStep_writes cfg.app s.app env
  constructor
  · intro m
    obtain ⟨hserver, hcommand⟩ := Application.mainStep_setting cfg.app env s.app m
    have hothers := hwrites m m.mem_all
    have hwritten : m.command (s.mainStep cfg env servo).app.commands =
        settle m.commandWrite (m.command s.app.commands)
          (s.otherWrites cfg (.app (.main env) servo)) := by
      by_cases hread : s.app.pc = .read ∧ env.readOk = true
      · -- a block of samples is read: the main loop itself writes nothing here
        have hsame : (s.app.mainStep cfg.app env).1.commands = s.app.commands := by
          simp only [Application.mainStep, hread.1, hread.2, if_true]
        have hown : s.app.ownWrites = [] := by simp only [Application.ownWrites, hread.1]
        simp only [mainStep, otherWrites, if_pos hread, TunerConfig.command_autoGain, hsame, hown,
          List.nil_append]
      · simp only [mainStep, otherWrites, if_neg hread, List.append_nil, hcommand]
    show SettleEqual _ _ (m.server (s.app.mainStep cfg.app env).1.server) _
      (s.app.mainStep cfg.app env).1.clientWrites
    rw [hserver, hwritten, hclient]
    exact h.settings_foreign m _ hothers
  · show ∀ w ∈ (s.app.mainStep cfg.app env).1.restWrites, _
    rw [hrest]
    exact h.rest
  · show Signalled _ _ (s.app.mainStep cfg.app env).1.clientWrites
    rw [hclient]
    exact h.stored
  · have hannounced : (s.app.mainStep cfg.app env).1.Announced frequencySignal :=
      h.announced.step (.main env)
    exact ⟨hannounced.client, hannounced.rest⟩
  · -- the automatic gain writes settings, never the frequency
    have hknown : FrequencyKnown (s.app.mainStep cfg.app env).1 := by
      apply mainStep_frequencyKnown h.frequency
      · intro freqHz hpc hok
        exact hleaves (by simp [givesUp, hpc, hok])
      · intro hpc
        exact hleaves (by simp [givesUp, hpc])
    obtain ⟨hvalue, hflag⟩ := maybeAdjustAutoGain_frequency cfg.tuner servo
      (s.app.mainStep cfg.app env).1.commands
    by_cases hread : s.app.pc = .read ∧ env.readOk = true
    · simp only [mainStep, if_pos hread]
      exact hknown.of_commands hvalue hflag
    · simp only [mainStep, if_neg hread]
      exact hknown

/-- A control makes its writes at once. -/
theorem controlStep_commands (s : Station δ) (c : ControlCall) :
    (s.controlStep cfg num outcomes c).app.commands =
      (controlWrites c).foldl XdrCommandState.write s.app.commands := by
  cases c with
  | setDeemphasis mode | setBlendMode mode =>
    by_cases hrange : mode < 0 ∨ 2 < mode
    · simp [controlStep, RestBackend.control, controlWrites, hrange]
    · simp [controlStep, RestBackend.control, RestBackend.stores, controlWrites, hrange]
  | _ => rfl

theorem control_mirrored {s : Station δ} (h : Mirrored s.app) {c : ControlCall}
    (hwrites : s.WritesInForce cfg (.control c)) :
    Mirrored (s.controlStep cfg num outcomes c).app := by
  have hcommands := s.controlStep_commands cfg num outcomes c
  constructor
  · intro m
    rw [hcommands, m.command_writes]
    exact h.settings_foreign m _ (hwrites m m.mem_all)
  · exact h.rest
  · exact h.stored
  · exact ⟨h.announced.client, h.announced.rest⟩
  · by_cases hfrequency : ∃ hz, c = .setFrequencyHz hz
    · obtain ⟨hz, rfl⟩ := hfrequency
      exact Or.inl (Or.inl rfl)
    · have hsame : (s.controlStep cfg num outcomes c).app.commands.requestedFrequencyHz =
          s.app.commands.requestedFrequencyHz ∧
          (s.controlStep cfg num outcomes c).app.commands.pendingFrequency =
            s.app.commands.pendingFrequency := by
        rw [hcommands]
        cases c with
        | setFrequencyHz hz => exact absurd ⟨hz, rfl⟩ hfrequency
        | setDeemphasis mode | setBlendMode mode =>
          simp only [controlWrites]
          split <;> exact ⟨rfl, rfl⟩
        | _ => exact ⟨rfl, rfl⟩
      exact h.frequency.of_commands hsame.1 hsame.2

theorem step_mirrored (s : Station δ) (a : StationAction) (h : Mirrored s.app)
    (hcond : s.WritesInForce cfg a ∧ s.LeavesKnown a) :
    Mirrored (s.step cfg num outcomes a).app := by
  cases a with
  | control c => exact control_mirrored cfg num outcomes h hcond.1
  | app a servo =>
    by_cases hmain : ∃ env, a = .main env
    · obtain ⟨env, rfl⟩ := hmain
      exact mainStep_mirrored cfg h hcond.1 hcond.2
    · have hother : ∀ env, a ≠ .main env := fun env he => hmain ⟨env, he⟩
      have hstep : (s.step cfg num outcomes (.app a servo)).app = (s.app.step cfg.app a).1 := by
        cases a with
        | main env => exact absurd rfl (hother env)
        | _ => rfl
      rw [hstep]
      apply h.client hother
      rintro m rfl
      exact hcond.1 m m.mem_all

theorem initial_mirrored (ofInt : Int → δ) {commands : XdrCommandState}
    (hstart : ∀ m ∈ Setting.all, m.server .initial = m.command commands) :
    Mirrored (Station.initial cfg ofInt commands).app where
  settings m := by
    have hm := hstart m m.mem_all
    cases m <;> exact hm
  rest w hw := by cases hw
  stored := trivial
  announced := ⟨trivial, trivial⟩
  frequency := Or.inr rfl

end Station

/-! ### The snapshot -/

/-- The main loop has taken a frequency request, or makes one. -/
def Pc.holdsFrequency : Pc → Bool
  | .loadFrequency | .tune _ | .compareFrequency _ | .clearPi _ | .storeFrequency _
  | .restoreFrequencyPending _ _ => true
  | _ => false

/-- No request is pending, under way or being served. -/
structure Application.NoRequest (app : Application) : Prop where
  clientWrites_eq : app.clientWrites = []
  restWrites_eq : app.restWrites = []
  frequency : app.commands.pendingFrequency = false
  pc : app.pc.holdsFrequency = false

/-- The snapshot of the state in force: the lines of volume, frequency in
    kHz, de-emphasis, AGC mode and bandwidth. -/
def XdrCommandState.snapshotLines (c : XdrCommandState) : List Text :=
  ['Y' :: decimalInt c.requestedVolume, 'T' :: decimal (c.requestedFrequencyHz / 1000),
    'D' :: decimalInt c.requestedDeemphasis, 'A' :: decimalInt c.requestedAGCMode,
    'W' :: decimalInt c.requestedBandwidthHz]

/-- What the invariant says when no request is pending. -/
theorem Mirrored.snapshot {app : Application} (h : Mirrored app) (hnone : app.NoRequest) :
    (((buildXdrStateSnapshot app.server).splitOn '\n').drop 1).take 5 =
      app.commands.snapshotLines := by
  have hsetting : ∀ m : Setting, m.server app.server = m.command app.commands := by
    intro m
    have hm := h.settings m
    rw [hnone.clientWrites_eq] at hm
    exact hm
  have hfrequency : app.server.frequency / 1000 = app.commands.requestedFrequencyHz / 1000 := by
    rcases h.frequency with (hflag | hclient | hrest) | hknown
    · rw [show frequencySignal.flag app.commands = false from hnone.frequency] at hflag
      cases hflag
    · rw [hnone.clientWrites_eq] at hclient
      cases hclient
    · rw [hnone.restWrites_eq] at hrest
      cases hrest
    · have hpc := hnone.pc
      cases happ : app.pc <;> rw [happ] at hknown hpc <;> first | exact hknown | cases hpc
  have hvolume : app.server.volume = app.commands.requestedVolume := hsetting .volume
  have hdeemphasis : app.server.deemphasis = app.commands.requestedDeemphasis :=
    hsetting .deemphasis
  have hagc : app.server.agcMode = app.commands.requestedAGCMode := hsetting .agc
  have hbandwidth : app.server.bandwidth = app.commands.requestedBandwidthHz :=
    hsetting .bandwidth
  rw [splitOn_snapshot, XdrCommandState.snapshotLines, ← hvolume, ← hdeemphasis, ← hagc,
    ← hbandwidth, ← hfrequency]
  rfl

namespace Station
variable {δ : Type} (cfg : StationConfig) (num : GainNumbers δ) (outcomes : Outcomes)

/-- A client that connects is sent the state in force, after every run that
    starts from the defaults of the server, in which writers other than
    commands write what the server has, and in which no frequency request is
    left that the server does not know. -/
theorem snapshot_reflects_state (ofInt : Int → δ) (commands : XdrCommandState)
    (acts : List StationAction)
    (hstart : ∀ m ∈ Setting.all, m.server .initial = m.command commands)
    (hwrites : (stationMachine cfg num outcomes).Meets (WritesInForce cfg)
      (Station.initial cfg ofInt commands) acts)
    (hleaves : (stationMachine cfg num outcomes).Meets LeavesKnown
      (Station.initial cfg ofInt commands) acts)
    (hnone : ((stationMachine cfg num outcomes).run
      (Station.initial cfg ofInt commands) acts).app.NoRequest) :
    let s := (stationMachine cfg num outcomes).run (Station.initial cfg ofInt commands) acts
    (((buildXdrStateSnapshot s.app.server).splitOn '\n').drop 1).take 5 =
      s.app.commands.snapshotLines := by
  have hstep : ∀ (s : Station δ) (a : StationAction), Mirrored s.app →
      s.WritesInForce cfg a ∧ s.LeavesKnown a →
        Mirrored ((stationMachine cfg num outcomes).step s a).app :=
    fun s a h hcond => step_mirrored cfg num outcomes s a h hcond
  have hrun := Machine.run_invariant hstep (initial_mirrored cfg ofInt hstart)
    (hwrites.and hleaves)
  exact hrun.snapshot hnone

/-- An XDR client sets the volume to 50, REST sets it again and retunes. -/
theorem snapshot_after_retune :
    let cfg : StationConfig :=
      ⟨⟨.rtlSdr, -1, -1, 0, false, false, 18, true, 8, 0, false⟩, true, true, 1⟩
    let servo : Servo := ⟨false, false, false, false, false⟩
    let main : StationAction := .app (.main
      { tuneOk := true, answers := ⟨true, true, true, false⟩, readOk := true, running := true,
        center := none, adaptive := none }) servo
    let s := (stationMachine cfg wholeGains fun _ _ => true).run
      (Station.initial cfg (· * 10) (.create 88500000 0 2 0 100 0 false))
      ([.app (.xdrLine "Y50".toList false) servo, .app .clientWrite servo,
        .app .clientWrite servo, .control (.setVolume 50), .control (.setFrequencyHz 98000000),
        .app .fmdxStart servo] ++ List.replicate 12 main)
    (((buildXdrStateSnapshot s.app.server).splitOn '\n').drop 1).take 5 =
      s.app.commands.snapshotLines := by
  apply snapshot_reflects_state
  · decide
  · decide +kernel
  · decide +kernel
  · constructor <;> decide +kernel

/-- REST sets the volume to 50: a client that connects is sent 100. -/
theorem rest_volume_not_sent :
    let cfg : StationConfig :=
      ⟨⟨.rtlSdr, -1, -1, 0, false, false, 18, true, 8, 0, false⟩, true, true, 1⟩
    let s := (stationMachine cfg wholeGains fun _ _ => true).run
      (Station.initial cfg (· * 10) (.create 88500000 0 2 0 100 0 false))
      [.control (.setVolume 50)]
    s.app.NoRequest ∧ s.app.commands.requestedVolume = 50 ∧
      (((buildXdrStateSnapshot s.app.server).splitOn '\n').drop 1).take 5 =
        ["Y100".toList, "T88500".toList, "D0".toList, "A2".toList, "W0".toList] ∧
      (((buildXdrStateSnapshot s.app.server).splitOn '\n').drop 1).take 5 ≠
        s.app.commands.snapshotLines := by
  refine ⟨⟨rfl, rfl, rfl, rfl⟩, rfl, ?_, ?_⟩
  · decide +kernel
  · decide +kernel

end Station

end FmSdrTuner
