import FmSdrTuner.Control.ScanInvariant

/-! # Requests of clients around a scan

    A frequency or a bandwidth that a client asks for while a scan is
    active is written to the variables that the scan start has captured
    and that the restore overwrites: it is lost. A bandwidth asked for
    just before the start, and not applied yet, is lost the same way.

    Main result: `last_request_in_force`. -/

namespace FmSdrTuner

/-- The next step tunes to a requested frequency. -/
def Pc.tunes : Pc → Bool
  | .tune _ => true
  | _ => false

/-- Retunes succeed. -/
def RetuneSucceeds (p : Application × Wanted) : AppAction → Prop
  | .main env => p.1.pc.tunes = true → env.tuneOk = true
  | _ => True

instance (p : Application × Wanted) : ∀ a, Decidable (RetuneSucceeds p a)
  | .main _ => inferInstanceAs (Decidable (_ → _))
  | .xdrLine .. | .fmdxLine _ | .clientWrite | .fmdxStart | .fmdxStop | .xdrDisconnect
  | .rest .. | .restWrite | .rdsGroup .. => isTrue trivial

/-! ### The invariant -/

/-- The requested frequency is tuned to, or will be. -/
def Application.FrequencyServed (s : Application) : Prop :=
  s.tunedHz = s.commands.requestedFrequencyHz ∨ s.raised frequencySignal ∨
    s.pc.servesFrequency = true

structure ScanTuned (p : Application × Wanted) : Prop where
  kept : ScanKept p
  announced : p.1.Announced frequencySignal
  loaded : ∀ freqHz, p.1.pc = .tune freqHz →
    freqHz = p.1.commands.requestedFrequencyHz ∨ p.1.raised frequencySignal
  tuned : p.1.scanning = false → p.1.FrequencyServed

theorem ScanTuned.of_settled {s : Application} (hs : s.Settled) : ScanTuned (s, .inForce s) where
  kept := .of_settled hs
  announced := .of_quiet hs.toQuiet
  loaded freqHz hpc := by
    cases hs.pc_eq.symm.trans hpc
  tuned _ := Or.inl hs.frequency

section steps
variable {cfg : AppConfig} {env : Env} {s : Application} {h : Wanted}

/-! ### Steps of the main loop -/

theorem mainStep_raised (hraised : s.raised frequencySignal)
    (hflag : (s.mainStep cfg env).1.commands.pendingFrequency = s.commands.pendingFrequency) :
    (s.mainStep cfg env).1.raised frequencySignal := by
  obtain ⟨hclient, hrest⟩ := Application.mainStep_writes cfg s env
  unfold Application.raised at hraised ⊢
  rw [hclient, hrest]
  exact hraised.imp_left fun hset => hflag.trans hset

/-- A step that touches neither the tuner nor the frequency request. -/
theorem FrequencyServed.frame (hserved : s.FrequencyServed)
    (htuned : (s.mainStep cfg env).1.tunedHz = s.tunedHz ∨
      (s.mainStep cfg env).1.tunedHz = s.commands.requestedFrequencyHz)
    (hreq : (s.mainStep cfg env).1.commands.requestedFrequencyHz =
      s.commands.requestedFrequencyHz)
    (hflag : (s.mainStep cfg env).1.commands.pendingFrequency = s.commands.pendingFrequency)
    (hserves : s.pc.servesFrequency = false) : (s.mainStep cfg env).1.FrequencyServed := by
  rcases hserved with heq | hraised | hon
  · refine Or.inl ?_
    rw [hreq]
    rcases htuned with hsame | hnew
    · rw [hsame, heq]
    · exact hnew
  · exact Or.inr (Or.inl (mainStep_raised hraised hflag))
  · rw [hserves] at hon
    cases hon

theorem tunedAfter_cases (s : Application) (answers : TunerAnswers) (calls : List TunerCall) :
    s.tunedAfter answers calls = s.tunedHz ∨
      s.tunedAfter answers calls = s.commands.requestedFrequencyHz := by
  unfold Application.tunedAfter
  split
  · exact Or.inr rfl
  · exact Or.inl rfl

theorem ScanTuned.served (ht : ScanTuned (s, h)) (hconn : DeviceConnected (s, h) (.main env))
    (hok : RetuneSucceeds (s, h) (.main env)) (hbefore : s.scanning = false) :
    (s.mainStep cfg env).1.FrequencyServed := by
  have hserved : s.FrequencyServed := ht.tuned hbefore
  cases hpc : s.pc with
  | restoreBandwidth | restoreBandwidthPending | restoreFrequency | restoreFrequencyPending
  | loadFrequency =>
    exact Or.inr (Or.inr (by simp [Application.mainStep, hpc, Pc.servesFrequency]))
  | restoreTune freqHz caller =>
    -- whatever this retune does, the request it announced is still there
    have hcarried : CarriesWanted s h s.pc := ht.kept.carried
    rw [hpc] at hcarried
    refine Or.inr (Or.inl (mainStep_raised (Or.inl hcarried) ?_))
    simp only [Application.mainStep, hpc]
    split <;> rfl
  | tune freqHz =>
    have htune : env.tuneOk = true := hok (by rw [hpc]; rfl)
    rcases ht.loaded freqHz hpc with heq | hraised
    · -- no client has asked for another frequency since it was loaded
      refine Or.inl ?_
      simp only [Application.mainStep, hpc, htune, if_true]
      exact heq
    · refine Or.inr (Or.inl (mainStep_raised hraised ?_))
      simp only [Application.mainStep, hpc]
  | pollFrequency =>
    have hdevice : s.session.rtlConnected = true := hconn (by rw [hpc]; rfl)
    cases hpending : s.commands.pendingFrequency with
    | true =>
      refine Or.inr (Or.inr ?_)
      simp only [Application.mainStep, hpc, hdevice, hpending, if_true]
      rfl
    | false =>
      apply FrequencyServed.frame hserved
      all_goals simp [Application.mainStep, hpc, hdevice, hpending, Pc.servesFrequency]
  | startTuner =>
    -- connecting tunes to the requested frequency
    apply FrequencyServed.frame hserved
    · simp only [Application.mainStep, hpc]
      exact tunedAfter_cases ..
    all_goals simp [Application.mainStep, hpc, Pc.servesFrequency]
  | read =>
    apply FrequencyServed.frame hserved
    · simp only [Application.mainStep, hpc]
      split
      · exact Or.inl rfl
      · exact tunedAfter_cases ..
    · simp only [Application.mainStep, hpc]
      split <;> rfl
    · simp only [Application.mainStep, hpc]
      split <;> rfl
    · rw [hpc]; rfl
  | sweep | sweepTune centerHz | fallback | finishScan =>
    rw [Application.scanning, hpc, Pc.inSweep, Bool.or_true] at hbefore
    cases hbefore
  | scanConfig currentFreqHz fields config =>
    cases fields <;> apply FrequencyServed.frame hserved <;>
      simp [Application.mainStep, hpc, Pc.servesFrequency]
  | _ =>
    apply FrequencyServed.frame hserved
    · exact Or.inl (by simp only [Application.mainStep, hpc])
    all_goals simp [Application.mainStep, hpc, Pc.servesFrequency]

/-- The main loop loads the frequency that it tunes to. -/
theorem mainStep_loads {freqHz : Nat} (hnext : (s.mainStep cfg env).1.pc = .tune freqHz) :
    freqHz = (s.mainStep cfg env).1.commands.requestedFrequencyHz := by
  cases hpc : s.pc with
  | loadFrequency =>
    simp only [Application.mainStep, hpc, Pc.tune.injEq] at hnext ⊢
    exact hnext.symm
  | scanConfig currentFreqHz fields config =>
    cases fields with
    | nil =>
      simp only [Application.mainStep, hpc] at hnext
      split at hnext <;> cases hnext
    | cons field fields => simp [Application.mainStep, hpc] at hnext
  | restoreTune freqHz caller =>
    simp only [Application.mainStep, hpc] at hnext
    split at hnext <;> cases caller <;> cases hnext
  | _ =>
    exfalso
    simp only [Application.mainStep, hpc] at hnext
    revert hnext
    first
      | (simp; done)
      | (repeat' split) <;> simp

theorem ScanTuned.main (ht : ScanTuned (s, h)) (hc : ScanCondition (s, h) (.main env))
    (hok : RetuneSucceeds (s, h) (.main env)) :
    ScanTuned ((wantedRun cfg).step (s, h) (.main env)) := by
  refine ⟨ht.kept.main hc, ht.announced.step (.main env),
    fun freqHz hnext => Or.inl (mainStep_loads hnext), fun hscan => ?_⟩
  cases hbefore : s.scanning with
  | true =>
    obtain ⟨caller, hrestore⟩ := mainStep_scan_ends cfg env hc.connected hbefore hscan
    refine Or.inr (Or.inr ?_)
    show (s.mainStep cfg env).1.pc.servesFrequency = true
    rw [hrestore]
    rfl
  | false => exact ht.served hc.connected hok hbefore

/-! ### Steps of the clients -/

theorem ScanTuned.client (ht : ScanTuned (s, h)) {a : AppAction} (hmain : ∀ env, a ≠ .main env)
    (hr : RequestsOutsideScan (s, h) a) : ScanTuned ((wantedRun cfg).step (s, h) a) := by
  have hown := s.step_own cfg hmain
  have hann : s.Announced frequencySignal := ht.announced
  refine ⟨ht.kept.client hmain hr, ht.announced.step a, fun freqHz hat => ?_, fun hscan => ?_⟩
  · rcases ht.loaded freqHz (hown.pc.symm.trans hat) with heq | hraised
    · rcases hann.value_step cfg hmain with hsame | hraised
      · exact Or.inl (heq.trans hsame.symm)
      · exact Or.inr hraised
    · exact Or.inr (hraised.step hmain)
  · show (s.step cfg a).1.FrequencyServed
    rcases ht.tuned (hown.scanning.symm.trans hscan) with heq | hraised | hserves
    · rcases hann.value_step cfg hmain with hsame | hraised
      · exact Or.inl ((hown.tunedHz.trans heq).trans hsame.symm)
      · exact Or.inr (Or.inl hraised)
    · exact Or.inr (Or.inl (hraised.step hmain))
    · exact Or.inr (Or.inr (by rw [hown.pc]; exact hserves))

theorem scanTuned_step (p : Application × Wanted) (a : AppAction) (ht : ScanTuned p)
    (hc : ScanCondition p a ∧ RetuneSucceeds p a) : ScanTuned ((wantedRun cfg).step p a) := by
  by_cases hmain : ∃ env, a = .main env
  · obtain ⟨env, rfl⟩ := hmain
    exact ht.main hc.1 hc.2
  · exact ht.client (fun env he => hmain ⟨env, he⟩) hc.1.requests

/-- In an idle state the tuner is on the frequency asked for last. -/
theorem ScanTuned.idle {p : Application × Wanted} (ht : ScanTuned p) (hidle : p.1.Idle) :
    p.1.tunedHz = p.2.frequencyHz := by
  rcases ht.tuned hidle.scanning with heq | hraised | hserves
  · exact heq.trans ht.kept.frequency
  · exact absurd hraised hidle.frequency
  · rw [hidle.servesFrequency] at hserves
    cases hserves

end steps

/-! ### Main result -/

/-- With the device connected and every retune succeeding, if each scan
    start captures what was asked for last, and clients ask for nothing new
    until it has been restored, then whenever no scan is active and no
    request is pending, what was asked for last is in force. -/
theorem last_request_in_force (cfg : AppConfig) (s : Application) (acts : List AppAction)
    (hs : s.Settled)
    (hdevice : (wantedRun cfg).Meets DeviceConnected (s, .inForce s) acts)
    (hretunes : (wantedRun cfg).Meets RetuneSucceeds (s, .inForce s) acts)
    (hcaptures : (wantedRun cfg).Meets CapturesWanted (s, .inForce s) acts)
    (hrequests : (wantedRun cfg).Meets RequestsOutsideScan (s, .inForce s) acts) :
    let p := (wantedRun cfg).run (s, .inForce s) acts
    p.1.Idle → p.1.tunedHz = p.2.frequencyHz ∧ p.1.appliedBandwidthHz = p.2.bandwidthHz := by
  intro p hidle
  have hcondition : (wantedRun cfg).Meets (fun p a => ScanCondition p a ∧ RetuneSucceeds p a)
      (s, .inForce s) acts :=
    (hdevice.and (hcaptures.and (hrequests.and hretunes))).mono
      fun _ _ hc => ⟨⟨hc.1, hc.2.1, hc.2.2.1⟩, hc.2.2.2⟩
  have htuned : ScanTuned p := Machine.run_invariant scanTuned_step (.of_settled hs) hcondition
  exact ⟨htuned.idle hidle, htuned.kept.idle hidle⟩

/-- A frequency is asked for before a scan, a bandwidth after its restore. -/
theorem requests_around_scan :
    let env : Env := ⟨true, ⟨true, true, true, false⟩, true, true, none, none⟩
    let s : Application := .initial (.create 88500000 0 2 0 85 0 false)
    let acts := .fmdxStart :: .xdrLine "T90000".toList false ::
      List.replicate 3 .clientWrite ++ List.replicate 19 (.main env) ++
      [.xdrLine "Sw56000".toList false, .clientWrite,
        .xdrLine "S".toList false, .clientWrite, .clientWrite] ++
      List.replicate 32 (.main env) ++
      .xdrLine "W100000".toList false :: List.replicate 3 .clientWrite ++
      List.replicate 9 (.main env)
    let p := (wantedRun ⟨⟨false, true, false⟩, ⟨0, true⟩⟩).run (s, .inForce s) acts
    p.1.tunedHz = p.2.frequencyHz ∧ p.1.appliedBandwidthHz = p.2.bandwidthHz := by
  intro env s acts
  have hidle : ((wantedRun ⟨⟨false, true, false⟩, ⟨0, true⟩⟩).run (s, .inForce s) acts).1.Idle :=
    ⟨by decide +kernel, by decide +kernel, by decide +kernel, by decide +kernel,
      by decide +kernel⟩
  exact last_request_in_force ⟨⟨false, true, false⟩, ⟨0, true⟩⟩ s acts
    (Application.initial_settled _) (by decide +kernel) (by decide +kernel) (by decide +kernel)
    (by decide +kernel) hidle

/-- A frequency asked for during a scan is overwritten by the restore. -/
theorem request_during_scan_lost :
    let env : Env := ⟨true, ⟨true, true, true, false⟩, true, true, none, none⟩
    let s : Application := .initial (.create 88500000 0 2 0 85 0 false)
    let acts := .fmdxStart :: List.replicate 3 (.main env) ++
      [.xdrLine "S".toList false, .clientWrite, .clientWrite] ++ List.replicate 16 (.main env) ++
      .xdrLine "T90000".toList false :: List.replicate 3 .clientWrite ++
      List.replicate 24 (.main env)
    let M := wantedRun ⟨⟨false, true, false⟩, ⟨0, true⟩⟩
    let p := M.run (s, .inForce s) acts
    M.Meets DeviceConnected (s, .inForce s) acts ∧
      M.Meets RetuneSucceeds (s, .inForce s) acts ∧
      M.Meets CapturesWanted (s, .inForce s) acts ∧
      p.1.pc = .pollStop ∧ p.1.scanning = false ∧ p.1.clientWrites = [] ∧
      p.1.restWrites = [] ∧ p.1.commands.pendingFrequency = false ∧
      p.1.commands.pendingBandwidth = false ∧
      p.2.frequencyHz = 90000000 ∧ p.1.tunedHz = 88500000 := by
  decide +kernel

end FmSdrTuner
