import FmSdrTuner.Control.MainLoop
import FmSdrTuner.XdrServer.Effects

/-! # The tuned frequency and the FM broadcast band

    The XDR command `T` accepts only frequencies of the FM broadcast band.
    The FM-DX command `T` and the REST parameters `freq_hz`, `frequency`
    and `freq_khz` reach the same fields without that check.

    Main result: `frequencies_stay_in_band`. -/

namespace FmSdrTuner

/-! ### Where frequencies travel -/

/-- The frequency that an effect stores or hands to the frequency callback. -/
def Effect.frequency : Effect → Option Nat
  | .store (.frequency hz) => some hz
  | .call (.freq hz) => some hz
  | _ => none

/-- The frequency that a write stores. -/
def Write.frequency : Write → Option Nat
  | .server (.frequency hz) => some hz
  | .command (.requestedFrequencyHz hz) => some hz
  | _ => none

/-- The frequency that the main loop carries, outside a sweep. -/
def Pc.frequency : Pc → Option Nat
  | .scanStart hz | .scanConfig hz _ _ | .restoreBandwidth hz _ _
  | .restoreBandwidthPending hz _ | .restoreFrequency hz _ | .restoreFrequencyPending hz _
  | .restoreTune hz _ | .tune hz | .compareFrequency hz | .clearPi hz | .storeFrequency hz =>
      some hz
  | _ => none

/-- All frequencies in a list are valid ones. -/
def AllInBand {β : Type} (frequency : β → Option Nat) (l : List β) : Prop :=
  ∀ b ∈ l, ∀ hz ∈ frequency b, isValidFmBroadcastFreqHz hz = true

theorem allInBand_nil {β : Type} (frequency : β → Option Nat) : AllInBand frequency [] :=
  fun _ h => absurd h List.not_mem_nil

/-- Only the frequency callback stores a frequency, the one it is given. -/
theorem callbackWrites_frequency {o : FacadeOptions} {c : Callback} {w : Write}
    (h : w ∈ callbackWrites o c) {hz : Nat} (hw : w.frequency = some hz) : c = .freq hz := by
  have hnone : (∀ hz, c ≠ .freq hz) → ∀ w ∈ callbackWrites o c, w.frequency = none := by
    intro hc
    cases c with
    | freq freqHz => exact absurd rfl (hc freqHz)
    | gain newGain | agc agcMode =>
      simp only [callbackWrites]
      split <;> simp [Write.frequency]
    | _ => simp [callbackWrites, Write.frequency]
  by_cases hc : ∃ freqHz, c = .freq freqHz
  · obtain ⟨freqHz, rfl⟩ := hc
    simp only [callbackWrites, List.mem_cons, List.not_mem_nil, or_false] at h
    rcases h with rfl | rfl <;> cases hw
    rfl
  · rw [hnone (fun hz he => hc ⟨hz, he⟩) w h] at hw
    cases hw

/-- The writes of a command carry only the frequencies of its effects. -/
theorem AllInBand.effectWrites {o : FacadeOptions} {effects : List Effect}
    (h : AllInBand Effect.frequency effects) :
    AllInBand Write.frequency (effects.flatMap (effectWrites o)) := by
  intro w hw hz hhz
  obtain ⟨e, he, hwe⟩ := List.mem_flatMap.mp hw
  cases e with
  | store st =>
    rw [FmSdrTuner.effectWrites, List.mem_singleton] at hwe
    subst hwe
    have hst : (Effect.store st).frequency = some hz := by
      cases st <;> first | cases hhz; rfl | exact hhz
    exact h _ he hz hst
  | call c =>
    rw [callbackWrites_frequency hwe hhz] at he
    exact h _ he hz rfl

/-- Only the frequency control stores a frequency, the one it is given. -/
theorem controlWrites_requested {c : ControlCall} {w : Write} (h : w ∈ controlWrites c)
    {hz : Nat} (hw : w.frequency = some hz) : c = .setFrequencyHz hz := by
  have hnone : (∀ hz, c ≠ .setFrequencyHz hz) → ∀ w ∈ controlWrites c, w.frequency = none := by
    intro hc
    cases c with
    | setFrequencyHz freqHz => exact absurd rfl (hc freqHz)
    | setDeemphasis mode | setBlendMode mode =>
      simp only [controlWrites]
      split <;> simp [Write.frequency]
    | _ => simp [controlWrites, Write.frequency]
  by_cases hc : ∃ freqHz, c = .setFrequencyHz freqHz
  · obtain ⟨freqHz, rfl⟩ := hc
    simp only [controlWrites, List.mem_cons, List.not_mem_nil, or_false] at h
    rcases h with rfl | rfl <;> cases hw
    rfl
  · rw [hnone (fun hz he => hc ⟨hz, he⟩) w h] at hw
    cases hw

/-! ### Commands -/

theorem Setter.inBand {tunes : Nat → Prop} {w : ServerStore} {c : Callback}
    (h : Setter tunes w c) (htunes : ∀ hz, tunes hz → isValidFmBroadcastFreqHz hz = true) :
    (∀ hz ∈ (Effect.store w).frequency, isValidFmBroadcastFreqHz hz = true) ∧
      ∀ hz ∈ (Effect.call c).frequency, isValidFmBroadcastFreqHz hz = true := by
  cases h with
  | frequency hhz =>
    constructor
    · intro hz hmem
      rw [← Option.some.inj hmem]
      exact htunes _ hhz
    · intro hz hmem
      rw [← Option.some.inj hmem]
      exact htunes _ hhz
  | _ => exact ⟨nofun, nofun⟩

/-- A command requests the frequencies that its dialect lets through, and
    no other. -/
theorem CommandEffects.inBand {hooks : Hooks} {tunes : Nat → Prop} {effects : List Effect}
    (h : CommandEffects hooks tunes effects)
    (htunes : ∀ hz, tunes hz → isValidFmBroadcastFreqHz hz = true) :
    AllInBand Effect.frequency effects := by
  apply h.forall_mem (P := fun e => ∀ hz ∈ e.frequency, isValidFmBroadcastFreqHz hz = true)
  · intro w c hsetter
    exact hsetter.inBand htunes
  · intro w c accepts hrequester
    cases hrequester <;> exact ⟨nofun, nofun⟩
  · intro interval detector _ _
    exact ⟨nofun, nofun, nofun⟩
  · intro c hnotice
    cases hnotice <;> exact nofun
  · intro w hscan
    cases hscan <;> exact nofun

/-- No XDR command requests a frequency outside the band. -/
theorem processCommand_frequency (s : XDRServer) (hooks : Hooks) (cmd : Text)
    (authenticated guestSession : Bool) :
    AllInBand Effect.frequency
      (processCommand s hooks cmd authenticated guestSession).effects :=
  (processCommand_effects s hooks cmd authenticated guestSession).inBand fun _ hband => hband

/-- The frequency that an FM-DX line asks for. -/
def fmdxFrequency : Text → Option Nat
  | 'T' :: arg => parseFrequencyHz arg
  | _ => none

/-- An FM-DX command requests the frequency of its line, and no other. -/
theorem processFmdxCommand_frequency (s : XDRServer) {hooks : Hooks} {cmd : Text}
    (h : ∀ hz ∈ fmdxFrequency cmd, isValidFmBroadcastFreqHz hz = true) :
    AllInBand Effect.frequency (processFmdxCommand s hooks cmd).effects := by
  apply (processFmdxCommand_effects s hooks cmd).inBand
  rintro hz ⟨arg, rfl, hparse⟩
  exact h hz hparse

/-! ### REST requests -/

/-- The frequency that a REST pair asks for. -/
def restFrequency (kv : Text × Text) : Option Nat :=
  if kv.1 = "freq_hz".toList ∨ kv.1 = "frequency".toList then
    ((toInt kv.2).filter (0 < ·)).map toUInt32
  else if kv.1 = "freq_khz".toList then
    ((toInt kv.2).filter (0 < ·)).map fun ival => toUInt32 ival * 1000 % 2 ^ 32
  else none

theorem restFrequency_of_requested {controls : Controls} {key val : Text} {hz : Nat}
    (h : requestedControl controls key val = some (some (.setFrequencyHz hz))) :
    restFrequency (key, val) = some hz := by
  unfold restFrequency
  unfold requestedControl at h
  by_cases hkey : key = "freq_hz".toList ∨ key = "frequency".toList
  · rw [if_pos hkey] at h ⊢
    cases hval : toInt val with
    | none => rw [hval] at h; cases h
    | some ival =>
      rw [hval] at h
      by_cases hpos : 0 < ival <;> simp_all
  · rw [if_neg hkey] at h ⊢
    by_cases hkhz : key = "freq_khz".toList
    · rw [if_pos hkhz] at h ⊢
      cases hval : toInt val with
      | none => rw [hval] at h; cases h
      | some ival =>
        rw [hval] at h
        by_cases hpos : 0 < ival <;> simp_all
    · -- no other key calls the frequency control
      rw [if_neg hkhz] at h
      simp only [ite_eq_iff, Option.map_eq_some_iff, Option.some.injEq, reduceCtorEq, and_false,
        exists_false, or_false] at h

/-- The writes of a REST request carry only the frequencies of its pairs. -/
theorem applyParams_frequency {controls : Controls} {params : List (Text × Text)}
    (h : ∀ kv ∈ params, ∀ hz ∈ restFrequency kv, isValidFmBroadcastFreqHz hz = true) :
    AllInBand Write.frequency ((applyParams controls params).calls.flatMap controlWrites) := by
  intro w hw hz hhz
  obtain ⟨c, hc, hwc⟩ := List.mem_flatMap.mp hw
  obtain ⟨kv, hkv, hreq⟩ := mem_applyParams_calls hc
  rw [controlWrites_requested hwc hhz] at hreq
  exact h kv hkv hz (restFrequency_of_requested hreq)

/-! ### Steps of the main loop -/

section mainStep
variable {cfg : AppConfig} {env : Env} {s : Application}

/-- The main loop stores only frequencies that it carries. -/
theorem mainStep_stored (cfg : AppConfig) (s : Application) (env : Env) :
    ((s.mainStep cfg env).1.server.frequency = s.server.frequency ∨
      s.pc.frequency = some (s.mainStep cfg env).1.server.frequency) ∧
    ((s.mainStep cfg env).1.commands.requestedFrequencyHz = s.commands.requestedFrequencyHz ∨
      s.pc.frequency = some (s.mainStep cfg env).1.commands.requestedFrequencyHz) := by
  constructor
  · cases hpc : s.pc with
    | storeFrequency freqHz => simp [Application.mainStep, hpc, Pc.frequency]
    | scanConfig currentFreqHz fields config => cases fields <;> simp [Application.mainStep, hpc]
    | _ =>
      refine Or.inl ?_
      simp only [Application.mainStep, hpc]
      try ((repeat' split) <;> rfl)
  · rcases s.mainStep_requestedFrequency cfg env with hsame | ⟨caller, hpc⟩
    · exact Or.inl hsame
    · exact Or.inr ((congrArg Pc.frequency hpc).trans rfl)

/-- The main loop carries the requested frequency, or the one that a scan
    restores. -/
theorem mainStep_carried {hz : Nat} (h : hz ∈ (s.mainStep cfg env).1.pc.frequency) :
    hz ∈ s.pc.frequency ∨ hz = s.commands.requestedFrequencyHz ∨
      s.scanning = true ∧ hz = s.scanEngine.restoreFreqHz := by
  cases hpc : s.pc with
  | scanConfig currentFreqHz fields config =>
    cases fields with
    | nil =>
      simp only [Application.mainStep, hpc] at h
      split at h <;> simp [Pc.frequency] at h
    | cons field fields =>
      simp only [Application.mainStep, hpc] at h
      exact Or.inl h
  | scanCancel =>
    simp only [Application.mainStep, hpc] at h
    split at h
    · next hcond =>
      cases h
      simp only [Bool.and_eq_true] at hcond
      exact Or.inr (Or.inr ⟨by rw [Application.scanning, hcond.1.2, Bool.true_or], rfl⟩)
    · simp [Pc.frequency] at h
  | finishScan =>
    simp only [Application.mainStep, hpc] at h
    split at h
    · cases h
      exact Or.inr (Or.inr ⟨by rw [Application.scanning, hpc, Pc.inSweep, Bool.or_true], rfl⟩)
    · simp [Pc.frequency] at h
  | restoreTune freqHz caller =>
    exfalso
    simp only [Application.mainStep, hpc] at h
    split at h <;> cases caller <;> simp [RestoreCaller.resume, Pc.frequency] at h
  | _ =>
    simp only [Application.mainStep, hpc] at h
    revert h
    first
      | (simp +contextual [Pc.frequency]; done)
      | (repeat' split) <;> simp +contextual [Pc.frequency]

/-- Outside a sweep the tuner is given the frequency that the main loop
    carries, or the requested one. -/
theorem mainStep_tuned {hz : Nat} (h : .setFrequency hz ∈ (s.mainStep cfg env).2)
    (hsweep : s.pc.inSweep = false) :
    hz ∈ s.pc.frequency ∨ hz = s.commands.requestedFrequencyHz := by
  cases hpc : s.pc with
  | startTuner =>
    simp only [Application.mainStep, hpc] at h
    exact Or.inr (TunerSession.connect_setFrequency h)
  | read =>
    simp only [Application.mainStep, hpc] at h
    split at h
    · cases h
    · exact Or.inr (TunerSession.note_setFrequency h)
  | stopTuner =>
    simp only [Application.mainStep, hpc, TunerSession.disconnect] at h
    split at h <;> simp at h
  | restoreTune freqHz caller =>
    simp only [Application.mainStep, hpc] at h
    split at h
    · simp only [List.mem_singleton, TunerCall.setFrequency.injEq] at h
      exact Or.inl (h ▸ rfl)
    · cases h
  | tune freqHz =>
    simp only [Application.mainStep, hpc, List.mem_singleton, TunerCall.setFrequency.injEq] at h
    exact Or.inl (h ▸ rfl)
  | sweep | sweepTune centerHz | fallback | finishScan => rw [hpc] at hsweep; cases hsweep
  | scanConfig currentFreqHz fields config =>
    cases fields <;> simp [Application.mainStep, hpc] at h
  | _ =>
    exfalso
    simp only [Application.mainStep, hpc] at h
    revert h
    first
      | (simp; done)
      | (repeat' split) <;> simp

end mainStep

/-! ### The invariant -/

/-- Every frequency is in band, wherever it is on its way. -/
structure Application.InBand (s : Application) : Prop where
  server : isValidFmBroadcastFreqHz s.server.frequency = true
  requested : isValidFmBroadcastFreqHz s.commands.requestedFrequencyHz = true
  clientWrites : AllInBand Write.frequency s.clientWrites
  restWrites : AllInBand Write.frequency s.restWrites
  restore : s.scanning = true → isValidFmBroadcastFreqHz s.scanEngine.restoreFreqHz = true
  carried : ∀ hz ∈ s.pc.frequency, isValidFmBroadcastFreqHz hz = true

/-- Whatever an FM-DX line or a REST request asks for is in band. -/
def AppAction.AsksInBand : AppAction → Prop
  | .fmdxLine cmd => ∀ hz ∈ fmdxFrequency cmd, isValidFmBroadcastFreqHz hz = true
  | .rest _ params =>
      ∀ kv ∈ params, ∀ hz ∈ restFrequency kv, isValidFmBroadcastFreqHz hz = true
  | _ => True

/-- The step calls the frequency callback, and tunes outside a sweep, only
    with frequencies in band. -/
def Application.TunesInBand (cfg : AppConfig) (s : Application) (a : AppAction) : Prop :=
  (∀ hz, .call (.freq hz) ∈ s.startedEffects cfg a → isValidFmBroadcastFreqHz hz = true) ∧
  (s.pc.inSweep = false →
    ∀ hz, .setFrequency hz ∈ (s.step cfg a).2 → isValidFmBroadcastFreqHz hz = true)

namespace Application.InBand

theorem of_quiet {s : Application} (hq : s.Quiet)
    (hserver : isValidFmBroadcastFreqHz s.server.frequency = true)
    (hrequested : isValidFmBroadcastFreqHz s.commands.requestedFrequencyHz = true) :
    s.InBand where
  server := hserver
  requested := hrequested
  clientWrites := by rw [hq.clientWrites_eq]; exact allInBand_nil _
  restWrites := by rw [hq.restWrites_eq]; exact allInBand_nil _
  restore h := by rw [scanning, hq.inactive, hq.pc_eq] at h; cases h
  carried hz h := by rw [hq.pc_eq] at h; cases h

variable {cfg : AppConfig} {s : Application}

theorem write (h : s.InBand) {w : Write}
    (hw : ∀ hz ∈ w.frequency, isValidFmBroadcastFreqHz hz = true) : (s.write w).InBand := by
  have hserver : isValidFmBroadcastFreqHz (s.write w).server.frequency = true := by
    cases w with
    | server st =>
      cases st with
      | frequency hz => exact hw hz rfl
      | _ => exact h.server
    | _ => exact h.server
  have hrequested : isValidFmBroadcastFreqHz (s.write w).commands.requestedFrequencyHz = true := by
    cases w with
    | command st =>
      cases st with
      | requestedFrequencyHz hz => exact hw hz rfl
      | _ => exact h.requested
    | _ => exact h.requested
  cases w <;> exact ⟨hserver, hrequested, h.clientWrites, h.restWrites, h.restore, h.carried⟩

theorem main (h : s.InBand) (env : Env) : (s.mainStep cfg env).1.InBand where
  server := by
    rcases (mainStep_stored cfg s env).1 with heq | hpc
    · rw [heq]; exact h.server
    · exact h.carried _ hpc
  requested := by
    rcases (mainStep_stored cfg s env).2 with heq | hpc
    · rw [heq]; exact h.requested
    · exact h.carried _ hpc
  clientWrites := by rw [(mainStep_writes cfg s env).1]; exact h.clientWrites
  restWrites := by rw [(mainStep_writes cfg s env).2]; exact h.restWrites
  restore hscan := by
    rcases mainStep_scanning cfg env hscan with ⟨hbefore, hfreq, -⟩ | ⟨freqHz, config, hpc, heng⟩
    · rw [hfreq]; exact h.restore hbefore
    · rw [heng]
      exact h.carried freqHz (by rw [hpc]; rfl)
  carried hz hhz := by
    rcases mainStep_carried hhz with hpc | rfl | ⟨hscan, rfl⟩
    · exact h.carried hz hpc
    · exact h.requested
    · exact h.restore hscan

/-- The effects that a line starts with are in band. -/
theorem startedEffects (cfg : AppConfig) (s : Application) {a : AppAction} (ha : a.AsksInBand) :
    AllInBand Effect.frequency (s.startedEffects cfg a) := by
  cases a with
  | xdrLine cmd guestSession =>
    simp only [Application.startedEffects]
    split
    · exact processCommand_frequency _ _ _ _ _
    · exact allInBand_nil _
  | fmdxLine cmd =>
    simp only [Application.startedEffects]
    split
    · exact processFmdxCommand_frequency s.server ha
    · exact allInBand_nil _
  | _ => exact allInBand_nil _

theorem step (h : s.InBand) {a : AppAction} (ha : a.AsksInBand) : (s.step cfg a).1.InBand := by
  by_cases hmain : ∃ env, a = .main env
  · obtain ⟨env, rfl⟩ := hmain
    exact h.main env
  · have hclient := s.step_client cfg fun env he => hmain ⟨env, he⟩
    revert hclient
    generalize (s.step cfg a).1 = s'
    rintro (⟨w, hd, -⟩ | ⟨w, ws, hws, -⟩ | ⟨w, ws, hws, -⟩ | - | ⟨controls, params, rfl, -, -⟩ |
      ⟨group, nowMs, -, -⟩ | -)
    · -- requests made outside the mutex carry no frequency
      apply h.write
      intro hz hhz
      have hnone : w.frequency = none := by
        cases a with
        | xdrLine cmd guestSession => cases cmd <;> cases hd; rfl
        | _ => cases hd <;> rfl
      rw [hnone] at hhz
      cases hhz
    · have hall := h.clientWrites
      rw [hws] at hall
      have htail : ({ s with clientWrites := ws } : Application).InBand :=
        { h with clientWrites := fun w' hw' => hall w' (List.mem_cons_of_mem _ hw') }
      exact htail.write (hall w List.mem_cons_self)
    · have hall := h.restWrites
      rw [hws] at hall
      have htail : ({ s with restWrites := ws } : Application).InBand :=
        { h with restWrites := fun w' hw' => hall w' (List.mem_cons_of_mem _ hw') }
      exact htail.write (hall w List.mem_cons_self)
    · exact { h with clientWrites := (startedEffects cfg s ha).effectWrites }
    · exact { h with restWrites := applyParams_frequency ha }
    · obtain ⟨pi, queue, next, heq⟩ := s.server.updateRDS_frame group nowMs
      have hserver :
          isValidFmBroadcastFreqHz (s.server.updateRDS group nowMs).frequency = true := by
        rw [heq]; exact h.server
      exact { h with server := hserver }
    · exact h

theorem tunes (h : s.InBand) {a : AppAction} (ha : a.AsksInBand) : s.TunesInBand cfg a := by
  refine ⟨fun hz hmem => startedEffects cfg s ha _ hmem hz rfl, ?_⟩
  intro hsweep hz hmem
  by_cases hmain : ∃ env, a = .main env
  · obtain ⟨env, rfl⟩ := hmain
    rcases mainStep_tuned hmem hsweep with hpc | rfl
    · exact h.carried hz hpc
    · exact h.requested
  · rw [step_calls cfg s fun env he => hmain ⟨env, he⟩] at hmem
    cases hmem

end Application.InBand

/-! ### Main result -/

/-- From any quiet state with both frequencies in band, if FM-DX lines and
    REST requests ask only for frequencies in band, every frequency stays
    there, whatever XDR lines ask for. -/
theorem frequencies_stay_in_band (cfg : AppConfig) (s : Application) (acts : List AppAction)
    (hquiet : s.Quiet) (hserver : isValidFmBroadcastFreqHz s.server.frequency = true)
    (hrequested : isValidFmBroadcastFreqHz s.commands.requestedFrequencyHz = true)
    (hasks : (appMachine cfg).Meets (fun _ a => a.AsksInBand) s acts) :
    let s' := (appMachine cfg).run s acts
    isValidFmBroadcastFreqHz s'.server.frequency = true ∧
      isValidFmBroadcastFreqHz s'.commands.requestedFrequencyHz = true ∧
      (appMachine cfg).Meets (Application.TunesInBand cfg) s acts := by
  have hband := Application.InBand.of_quiet hquiet hserver hrequested
  have hstep : ∀ s a, Application.InBand s → a.AsksInBand →
      ((appMachine cfg).step s a).InBand := fun _ _ h ha => h.step ha
  have hfinal := Machine.run_invariant hstep hband hasks
  exact ⟨hfinal.server, hfinal.requested,
    Machine.meets_of_invariant hstep (fun _ _ h ha => h.tunes ha) hband hasks⟩

/-- An XDR client asks for 1 MHz and an FM-DX client for 90 MHz. -/
theorem xdr_tune_checked :
    let acts : List AppAction := [.xdrLine "T1000000".toList false, .fmdxLine "T90000".toList,
      .clientWrite, .clientWrite]
    let s' := (appMachine ⟨⟨false, true, false⟩, ⟨0, true⟩⟩).run
      (.initial (.create 88500000 0 2 0 85 0 false)) acts
    isValidFmBroadcastFreqHz s'.server.frequency = true ∧
      isValidFmBroadcastFreqHz s'.commands.requestedFrequencyHz = true ∧
      (appMachine ⟨⟨false, true, false⟩, ⟨0, true⟩⟩).Meets
        (Application.TunesInBand ⟨⟨false, true, false⟩, ⟨0, true⟩⟩)
        (.initial (.create 88500000 0 2 0 85 0 false)) acts := by
  refine frequencies_stay_in_band _ _ _ (Application.initial_quiet _) (by decide) (by decide)
    ⟨trivial, ?_, trivial, trivial, trivial⟩
  have hparse : fmdxFrequency "T90000".toList = some 90000000 := by decide
  intro hz hhz
  rw [hparse] at hhz
  cases hhz
  decide

/-- The FM-DX command and the REST parameter tune outside the band. -/
theorem fmdx_and_rest_tune_out_of_band :
    let cfg : AppConfig := ⟨⟨false, true, false⟩, ⟨0, true⟩⟩
    let s : Application := .initial (.create 88500000 0 2 0 85 0 false)
    let fmdx := (appMachine cfg).run s
      [.fmdxLine "T1000000".toList, .clientWrite, .clientWrite]
    let rest := (appMachine cfg).run s
      [.rest ⟨fun _ => true, fun _ _ => true, fun _ => true⟩
        [("freq_khz".toList, "1".toList)], .restWrite]
    isValidFmBroadcastFreqHz s.server.frequency = true ∧
      isValidFmBroadcastFreqHz s.commands.requestedFrequencyHz = true ∧
      fmdx.server.frequency = 1000000 ∧ fmdx.commands.requestedFrequencyHz = 1000000 ∧
      rest.commands.requestedFrequencyHz = 1000 := by
  decide +kernel

end FmSdrTuner
