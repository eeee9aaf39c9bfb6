import FmSdrTuner.Control.ScanTuning

/-! # What a scan restores

    When nobody asks for a frequency or a bandwidth, a scan leaves things
    as it found them, if it captures the bandwidth that was in force
    before: one that starts while another is active may capture that of the
    other.

    Main result: `scan_restores`. -/

namespace FmSdrTuner

/-! ### Runs of scans alone -/

/-- The write by which a client or the adaptive bandwidth asks for something. -/
def Application.asked (s : Application) : AppAction → Option Write
  | .main _ => s.pc.adapts.map fun bandwidthHz => .command (.requestedBandwidthHz bandwidthHz)
  | a => s.performed a

/-- Neither a client nor the adaptive bandwidth asks for a frequency or a
    bandwidth. -/
def NoTuningRequests (p : Application × Wanted) (a : AppAction) : Prop :=
  ∀ w ∈ p.1.asked a, isFrequencyRequest w = false ∧ isBandwidthRequest w = false

/-- A scan starts with the bandwidth in force that was there before. -/
def StartsWithBandwidth (p : Application × Wanted) : AppAction → Prop
  | .main _ => ∀ _freqHz ∈ p.1.pc.captures, p.1.appliedBandwidthHz = p.2.bandwidthHz
  | _ => True

instance (p : Application × Wanted) (a : AppAction) : Decidable (NoTuningRequests p a) :=
  inferInstanceAs (Decidable (∀ w ∈ p.1.asked a, _))

instance (p : Application × Wanted) : ∀ a, Decidable (StartsWithBandwidth p a)
  | .main _ => inferInstanceAs (Decidable (∀ _freqHz ∈ p.1.pc.captures, _))
  | .xdrLine .. | .fmdxLine _ | .clientWrite | .fmdxStart | .fmdxStop | .xdrDisconnect
  | .rest .. | .restWrite | .rdsGroup .. => isTrue trivial

/-- The main loop carries one frequency only. -/
def CarriesCurrent (freqHz : Nat) : Pc → Prop
  | .scanStart hz | .scanConfig hz _ _ | .tune hz => hz = freqHz
  | _ => True

structure ScansAlone (freqHz : Nat) (bandwidthHz : Int) (p : Application × Wanted) : Prop where
  kept : ScanKept p
  frequency : p.2.frequencyHz = freqHz
  bandwidth : p.2.bandwidthHz = bandwidthHz
  lastApplied : p.2.lastAppliedHz = freqHz
  current : CarriesCurrent freqHz p.1.pc

section alone
variable {cfg : AppConfig} {s : Application} {h : Wanted} {freqHz : Nat} {bandwidthHz : Int}

theorem ScansAlone.of_settled (hs : s.Settled) :
    ScansAlone s.commands.requestedFrequencyHz s.appliedBandwidthHz (s, .inForce s) where
  kept := .of_settled hs
  frequency := rfl
  bandwidth := rfl
  lastApplied := rfl
  current := by
    show CarriesCurrent _ s.pc
    rw [hs.pc_eq]
    exact trivial

/-- Any other write leaves alone what clients want. -/
theorem note_noRequest {w : Write}
    (hno : isFrequencyRequest w = false ∧ isBandwidthRequest w = false) : h.note w = h := by
  obtain ⟨hf, hb⟩ := hno
  cases w with
  | command st => cases st <;> first | rfl | (cases hf; done) | cases hb
  | _ => rfl

theorem asked_of_performed {a : AppAction} {w : Write} (hw : s.performed a = some w) :
    s.asked a = some w := by
  cases a with
  | main env => cases hw
  | _ => exact hw

theorem NoTuningRequests.adapts_none {env : Env} (hno : NoTuningRequests (s, h) (.main env)) :
    s.pc.adapts = none := by
  cases hadapts : s.pc.adapts with
  | none => rfl
  | some bandwidthHz =>
    have hasked : s.asked (.main env) = some (.command (.requestedBandwidthHz bandwidthHz)) := by
      rw [Application.asked, hadapts]
      rfl
    cases (hno _ hasked).2

theorem observeWanted_noRequests {a : AppAction} (hmain : ∀ env, a ≠ .main env)
    (hno : NoTuningRequests (s, h) a) : observeWanted h s a = h := by
  rw [observeWanted_client h s hmain]
  cases hw : s.performed a with
  | none => rfl
  | some w => exact note_noRequest (hno w (asked_of_performed hw))

variable (cfg) in
theorem mainStep_current (env : Env) (hreq : s.commands.requestedFrequencyHz = freqHz)
    (hcurrent : CarriesCurrent freqHz s.pc) :
    CarriesCurrent freqHz (s.mainStep cfg env).1.pc := by
  cases hpc : s.pc with
  | control | loadFrequency =>
    simp only [Application.mainStep, hpc]
    exact hreq
  | scanStart currentFreqHz =>
    rw [hpc] at hcurrent
    simp only [Application.mainStep, hpc]
    split
    · exact hcurrent
    · trivial
  | scanConfig currentFreqHz fields config =>
    rw [hpc] at hcurrent
    cases fields with
    | nil =>
      simp only [Application.mainStep, hpc]
      split <;> trivial
    | cons field fields =>
      simp only [Application.mainStep, hpc]
      exact hcurrent
  | restoreTune freqHz caller =>
    simp only [Application.mainStep, hpc]
    split <;> cases caller <;> trivial
  | _ =>
    simp only [Application.mainStep, hpc]
    first
      | trivial
      | (repeat' split) <;> trivial

/-- In such a run a scan start captures what is wanted. -/
theorem ScansAlone.condition (hk : ScansAlone freqHz bandwidthHz (s, h)) {a : AppAction}
    (hdevice : DeviceConnected (s, h) a) (hno : NoTuningRequests (s, h) a)
    (hstart : StartsWithBandwidth (s, h) a) : ScanCondition (s, h) a := by
  refine ⟨hdevice, ?_, fun w hw => ?_⟩
  · cases a with
    | main env =>
      intro captured hcaptures
      refine ⟨?_, hstart captured hcaptures⟩
      have hcurrent : CarriesCurrent freqHz s.pc := hk.current
      revert hcaptures
      cases hpc : s.pc with
      | scanConfig currentFreqHz fields config =>
        rw [hpc] at hcurrent
        cases fields with
        | nil =>
          rintro ⟨⟩
          exact hcurrent.trans hk.frequency.symm
        | cons field fields => rintro ⟨⟩
      | _ => rintro ⟨⟩
    | _ => trivial
  · rw [note_noRequest (hno w (asked_of_performed hw))]
    -- a write that requests nothing changes neither wish
    exact ⟨Or.inl rfl, Or.inl rfl⟩

theorem ScansAlone.step (hk : ScansAlone freqHz bandwidthHz (s, h)) {a : AppAction}
    (hdevice : DeviceConnected (s, h) a) (hno : NoTuningRequests (s, h) a)
    (hstart : StartsWithBandwidth (s, h) a) :
    ScansAlone freqHz bandwidthHz ((wantedRun cfg).step (s, h) a) := by
  have hkept : ScanKept ((wantedRun cfg).step (s, h) a) :=
    scanKept_step (s, h) a hk.kept (hk.condition hdevice hno hstart)
  by_cases hmain : ∃ env, a = .main env
  · obtain ⟨env, rfl⟩ := hmain
    obtain ⟨hfreq, hband⟩ := observeWanted_main h s env
    rw [hno.adapts_none] at hband
    refine ⟨hkept, hfreq.trans hk.frequency, hband.trans hk.bandwidth, ?_,
      mainStep_current cfg env (hk.kept.frequency.trans hk.frequency) hk.current⟩
    show (observeWanted h s (.main env)).lastAppliedHz = freqHz
    have hcurrent : CarriesCurrent freqHz s.pc := hk.current
    cases hpc : s.pc with
    | tune hz =>
      rw [hpc] at hcurrent
      simp only [observeWanted, hpc]
      split
      · exact hcurrent
      · exact hk.lastApplied
    | _ =>
      simp only [observeWanted, hpc]
      exact hk.lastApplied
  · have hclient : ∀ env, a ≠ .main env := fun env he => hmain ⟨env, he⟩
    have hobs := observeWanted_noRequests hclient hno
    have hown := s.step_own cfg hclient
    refine ⟨hkept, ?_, ?_, ?_, ?_⟩
    · exact (congrArg Wanted.frequencyHz hobs).trans hk.frequency
    · exact (congrArg Wanted.bandwidthHz hobs).trans hk.bandwidth
    · exact (congrArg Wanted.lastAppliedHz hobs).trans hk.lastApplied
    · show CarriesCurrent freqHz (s.step cfg a).1.pc
      rw [hown.pc]
      exact hk.current

/-- Scans alone meet the condition under which the tuner is kept too. -/
theorem ScansAlone.step_tuned (p : Application × Wanted) (a : AppAction)
    (hboth : ScansAlone freqHz bandwidthHz p ∧ ScanTuned p)
    (hc : DeviceConnected p a ∧ NoTuningRequests p a ∧ StartsWithBandwidth p a ∧
      RetuneSucceeds p a) :
    ScansAlone freqHz bandwidthHz ((wantedRun cfg).step p a) ∧
      ScanTuned ((wantedRun cfg).step p a) := by
  obtain ⟨hk, ht⟩ := hboth
  obtain ⟨hdevice, hno, hstart, hok⟩ := hc
  exact ⟨hk.step hdevice hno hstart, scanTuned_step p a ht ⟨hk.condition hdevice hno hstart, hok⟩⟩

end alone

/-! ### Main result -/

/-- With the device connected and nobody asking for a frequency or a
    bandwidth, if every scan starts with the bandwidth in force that was
    there before the first, then whenever no scan is active and no request
    is pending, frequency and bandwidth are those of before, and so is the
    tuner if every retune succeeds. -/
theorem scan_restores (cfg : AppConfig) (s : Application) (acts : List AppAction)
    (hs : s.Settled)
    (hdevice : (wantedRun cfg).Meets DeviceConnected (s, .inForce s) acts)
    (hno : (wantedRun cfg).Meets NoTuningRequests (s, .inForce s) acts)
    (hstart : (wantedRun cfg).Meets StartsWithBandwidth (s, .inForce s) acts) :
    let p := (wantedRun cfg).run (s, .inForce s) acts
    p.1.Idle →
      p.1.commands.requestedFrequencyHz = s.commands.requestedFrequencyHz ∧
      p.2.lastAppliedHz = s.commands.requestedFrequencyHz ∧
      p.1.appliedBandwidthHz = s.appliedBandwidthHz ∧
      ((wantedRun cfg).Meets RetuneSucceeds (s, .inForce s) acts →
        p.1.tunedHz = s.tunedHz) := by
  intro p hidle
  have halone : ScansAlone s.commands.requestedFrequencyHz s.appliedBandwidthHz p :=
    Machine.run_invariant (fun _ _ hk hc => hk.step hc.1 hc.2.1 hc.2.2) (.of_settled hs)
      (hdevice.and (hno.and hstart))
  refine ⟨halone.kept.frequency.trans halone.frequency, halone.lastApplied,
    (halone.kept.idle hidle).trans halone.bandwidth, fun hretunes => ?_⟩
  have hboth : ScansAlone s.commands.requestedFrequencyHz s.appliedBandwidthHz p ∧ ScanTuned p :=
    Machine.run_invariant ScansAlone.step_tuned ⟨.of_settled hs, .of_settled hs⟩
      (hdevice.and (hno.and (hstart.and hretunes)))
  calc p.1.tunedHz = p.2.frequencyHz := hboth.2.idle hidle
    _ = s.commands.requestedFrequencyHz := halone.frequency
    _ = s.tunedHz := hs.frequency.symm

/-- A single scan with a bandwidth of its own, run to its end. -/
theorem single_scan_restores :
    let env : Env := ⟨true, ⟨true, true, true, false⟩, true, true, none, none⟩
    let s : Application := .initial (.create 88500000 0 2 0 85 0 false)
    let acts := .fmdxStart :: List.replicate 3 (.main env) ++
      [.xdrLine "Sw56000".toList false, .clientWrite,
        .xdrLine "S".toList false, .clientWrite, .clientWrite] ++
      List.replicate 42 (.main env)
    let p := (wantedRun ⟨⟨false, true, false⟩, ⟨0, true⟩⟩).run (s, .inForce s) acts
    p.1.commands.requestedFrequencyHz = s.commands.requestedFrequencyHz ∧
      p.2.lastAppliedHz = s.commands.requestedFrequencyHz ∧
      p.1.appliedBandwidthHz = s.appliedBandwidthHz ∧ p.1.tunedHz = s.tunedHz := by
  intro env s acts
  have hidle : ((wantedRun ⟨⟨false, true, false⟩, ⟨0, true⟩⟩).run (s, .inForce s) acts).1.Idle :=
    ⟨by decide +kernel, by decide +kernel, by decide +kernel, by decide +kernel,
      by decide +kernel⟩
  obtain ⟨hrequested, hlast, hbandwidth, htuned⟩ :=
    scan_restores ⟨⟨false, true, false⟩, ⟨0, true⟩⟩ s acts (Application.initial_settled _)
      (by decide +kernel) (by decide +kernel) (by decide +kernel) hidle
  exact ⟨hrequested, hlast, hbandwidth, htuned (by decide +kernel)⟩

/-- While a continuous scan with a bandwidth of its own is active, a second
    scan is started: it captures the bandwidth of the first. -/
theorem second_start_keeps_scan_bandwidth :
    let env : Env := ⟨true, ⟨true, true, true, false⟩, true, true, none, none⟩
    let s : Application := .initial (.create 88500000 0 2 0 85 0 false)
    let acts := .fmdxStart :: List.replicate 3 (.main env) ++
      [.xdrLine "Sw56000".toList false, .clientWrite,
        .xdrLine "Sm".toList false, .clientWrite, .clientWrite] ++
      List.replicate 22 (.main env) ++
      [.xdrLine "S".toList false, .clientWrite, .clientWrite] ++ List.replicate 43 (.main env)
    let M := wantedRun ⟨⟨false, true, false⟩, ⟨0, true⟩⟩
    let p := M.run (s, .inForce s) acts
    M.Meets DeviceConnected (s, .inForce s) acts ∧
      M.Meets NoTuningRequests (s, .inForce s) acts ∧
      p.1.pc = .pollStop ∧ p.1.scanning = false ∧ p.1.clientWrites = [] ∧
      p.1.restWrites = [] ∧ p.1.commands.pendingFrequency = false ∧
      p.1.commands.pendingBandwidth = false ∧
      s.appliedBandwidthHz = 0 ∧ p.1.appliedBandwidthHz = 56000 := by
  decide +kernel

end FmSdrTuner
